import Mathlib.Logic.Basic
import MissionTime.Proofs.Duality

/-!
# Satisfaction

The evaluator scans the window of an interval for the first step at which an operand holds or
fails, and its positions are 64-bit words that stop at the last one. This module defines what
is to be computed: the relation `Formula.Holds`, which quantifies over the steps of a window
and adds offsets without a bound. The two agree on every window of a trace whose steps can be
numbered by 64-bit words.

The bridge is the meaning of a window. Where it is cut at a step that has a number, saturation
cannot be seen: `Interval.mem_window` describes its steps by plain sums.

## Main results

* `Interval.mem_window` and `Interval.reachedBy_iff`: the steps of a window, without saturation.
* `Interval.window_min_lastStep`: a window ends at the last step, wherever it is to stop.
* `Interval.find?_window_eq_some` and `Interval.find?_window_eq_none`: what a scan finds.
* `Formula.eval_iff_holds`: the evaluator decides satisfaction.
* `Formula.evaluateWindow_iff_holds`: the same for windows of a trace.
-/

namespace MissionTime

variable {σ : Type} [State σ]

/-! ### The steps of a window -/

namespace Interval

/-- The steps `i` of the window `[start, stop)` whose distance from `start` lies in the
interval. -/
structure Covers (I : Interval) (start stop i : Nat) : Prop where
  lower_le : start + I.lower.toNat ≤ i
  le_upper : i ≤ start + I.upper.toNat
  lt_stop : i < stop

/-- A window that ends at a numbered step consists of the steps that the interval covers:
wherever a sum of positions is cut off, the window has ended before. -/
theorem mem_window (I : Interval) {start stop i : Nat} (h : stop ≤ lastStep) :
    i ∈ I.window start stop ↔ I.Covers start stop i := by
  simp only [window, stepAfter, List.mem_range'_1]
  constructor
  · rintro ⟨hfirst, hbeyond⟩
    exact ⟨by omega, by omega, by omega⟩
  · rintro ⟨hlower, hupper, hstop⟩
    omega

/-- A window reaches an interval if the step at the lower offset comes before its end. -/
theorem reachedBy_iff (I : Interval) (start stop : Nat) :
    I.reachedBy start stop = true ↔ start + I.lower.toNat < stop := by
  rw [reachedBy, decide_eq_true_iff]
  omega

/-- A window with a covered step reaches the interval. -/
theorem Covers.reachedBy {I : Interval} {start stop i : Nat} (h : I.Covers start stop i) :
    I.reachedBy start stop = true :=
  (I.reachedBy_iff start stop).mpr (Nat.lt_of_le_of_lt h.lower_le h.lt_stop)

/-- So does a window with a covered step that has a number. -/
theorem Covers.reachedBy_of_numbered {I : Interval} {start stop i : Nat}
    (h : I.Covers start (min stop lastStep) i) : I.reachedBy start stop = true :=
  Covers.reachedBy ⟨h.lower_le, h.le_upper, Nat.lt_of_lt_of_le h.lt_stop (Nat.min_le_left _ _)⟩

/-- Positions end at the last step, and so do windows, wherever they are to stop. -/
theorem window_min_lastStep (I : Interval) (start stop : Nat) :
    I.window start (min stop lastStep) = I.window start stop := by
  have hbeyond : stepAfter (stepAfter start I.upper.toNat) 1 ≤ lastStep := Nat.min_le_right _ _
  simp only [window, Nat.min_comm stop, ← Nat.min_assoc, Nat.min_eq_left hbeyond]

/-- A scan of a window finds the first covered step that passes the test. -/
theorem find?_window_eq_some (I : Interval) {start stop i : Nat} (h : stop ≤ lastStep)
    (test : Nat → Bool) :
    (I.window start stop).find? test = some i ↔
      I.Covers start stop i ∧ test i = true ∧
        ∀ j, start + I.lower.toNat ≤ j → j < i → test j = false := by
  have hmem : i ∈ I.window start stop ↔ I.Covers start stop i := I.mem_window h
  simp only [window, stepAfter] at hmem ⊢
  rw [List.find?_range'_eq_some, hmem]
  constructor
  · rintro ⟨htest, hi, hfirst⟩
    refine ⟨hi, htest, fun j hj hji => ?_⟩
    simpa using hfirst j (by omega) hji
  · rintro ⟨hi, htest, hfirst⟩
    refine ⟨htest, hi, fun j hj hji => ?_⟩
    have := hi.lt_stop
    simpa using hfirst j (by omega) hji

/-- A scan of a window finds nothing if no covered step passes the test. -/
theorem find?_window_eq_none (I : Interval) {start stop : Nat} (h : stop ≤ lastStep)
    (test : Nat → Bool) :
    (I.window start stop).find? test = none ↔
      ∀ i, I.Covers start stop i → test i = false := by
  simp only [List.find?_eq_none, I.mem_window h, Bool.not_eq_true]

end Interval

/-! ### What the evaluator computes for each operator -/

namespace Formula

/-- A search for a first witness, followed by a check of the steps before it, succeeds if some
witness has only good steps before it: the first witness comes no later. -/
theorem until_scan_iff (I : Interval) (start : Nat) {stop : Nat} (h : stop ≤ lastStep)
    (good witness : Nat → Bool) :
    (match (I.window start stop).find? witness with
      | some first => (I.window start first).all good
      | none => false) = true ↔
      ∃ i, I.Covers start stop i ∧ witness i = true ∧
        ∀ j, start + I.lower.toNat ≤ j → j < i → good j = true := by
  cases hscan : (I.window start stop).find? witness with
  | none =>
      have hnone := (I.find?_window_eq_none h witness).mp hscan
      constructor
      · intro hfalse
        cases hfalse
      · rintro ⟨i, hi, hwitness, -⟩
        rw [hnone i hi] at hwitness
        cases hwitness
  | some first =>
      obtain ⟨hfirst, hwitness, hbefore⟩ := (I.find?_window_eq_some h witness).mp hscan
      have hlast : first ≤ lastStep := Nat.le_trans (Nat.le_of_lt hfirst.lt_stop) h
      simp only [List.all_eq_true, I.mem_window hlast]
      constructor
      · intro hgood
        refine ⟨first, hfirst, hwitness, fun j hj hji => hgood j ⟨hj, ?_, hji⟩⟩
        have := hfirst.le_upper
        omega
      · rintro ⟨i, hi, hwi, hgood⟩ j ⟨hj, -, hji⟩
        refine hgood j hj (Nat.lt_of_lt_of_le hji (Nat.le_of_not_lt fun hlt => ?_))
        rw [hbefore i hi.lower_le hlt] at hwi
        cases hwi

variable (t : Trace σ) {stop : Nat} (start : Nat) (I : Interval) (l r x : Formula)

/-- `finally` is true if its operand is true at a covered step that has a number. -/
theorem eval_finally_iff_of_numbered :
    (unary .finally I x).eval t stop start = true ↔
      ∃ i, I.Covers start (min stop lastStep) i ∧ x.eval t stop i = true := by
  simp only [eval, Bool.and_eq_true, List.any_eq_true, ← I.window_min_lastStep start stop,
    I.mem_window (Nat.min_le_right stop lastStep)]
  constructor
  · rintro ⟨-, hex⟩
    exact hex
  · rintro ⟨i, hi, hx⟩
    exact ⟨hi.reachedBy_of_numbered, i, hi, hx⟩

/-- On a window that ends at a numbered step, all covered steps have numbers. -/
theorem eval_finally_iff (h : stop ≤ lastStep) :
    (unary .finally I x).eval t stop start = true ↔
      ∃ i, I.Covers start stop i ∧ x.eval t stop i = true := by
  rw [eval_finally_iff_of_numbered, Nat.min_eq_left h]

/-- `globally` is true if its operand is true at all covered steps. -/
theorem eval_globally_iff (h : stop ≤ lastStep) :
    (unary .globally I x).eval t stop start = true ↔
      ∀ i, I.Covers start stop i → x.eval t stop i = true := by
  simp only [eval, Bool.or_eq_true, Bool.not_eq_true', List.all_eq_true, I.mem_window h]
  constructor
  · rintro (hshort | hall) i hi
    · rw [hi.reachedBy] at hshort
      cases hshort
    · exact hall i hi
  · exact Or.inr

/-- `until` is true if its right operand is true at a covered step that has a number, and its
left operand at all steps from the lower offset up to that one. -/
theorem eval_until_iff_of_numbered :
    (binary .until l I r).eval t stop start = true ↔
      ∃ i, I.Covers start (min stop lastStep) i ∧ r.eval t stop i = true ∧
        ∀ j, start + I.lower.toNat ≤ j → j < i → l.eval t stop j = true := by
  have hscan := until_scan_iff I start (Nat.min_le_right stop lastStep) (l.eval t stop)
    (r.eval t stop)
  rw [I.window_min_lastStep] at hscan
  rw [eval, Bool.and_eq_true]
  constructor
  · rintro ⟨-, hfound⟩
    exact hscan.mp hfound
  · intro hex
    have hreached : I.reachedBy start stop = true := by
      obtain ⟨i, hi, -⟩ := hex
      exact hi.reachedBy_of_numbered
    exact ⟨hreached, hscan.mpr hex⟩

/-- On a window that ends at a numbered step, all covered steps have numbers. -/
theorem eval_until_iff (h : stop ≤ lastStep) :
    (binary .until l I r).eval t stop start = true ↔
      ∃ i, I.Covers start stop i ∧ r.eval t stop i = true ∧
        ∀ j, start + I.lower.toNat ≤ j → j < i → l.eval t stop j = true := by
  rw [eval_until_iff_of_numbered, Nat.min_eq_left h]

/-- `release` is true if at each covered step its right operand is true or its left operand
has been true at a step from the lower offset on. That is what its dual denies. -/
theorem eval_release_iff (h : stop ≤ lastStep) :
    (binary .release l I r).eval t stop start = true ↔
      ∀ i, I.Covers start stop i → r.eval t stop i = true ∨
        ∃ k, start + I.lower.toNat ≤ k ∧ k < i ∧ l.eval t stop k = true := by
  rw [eval_release, Bool.not_eq_true', ← Bool.not_eq_true,
    eval_until_iff t start I (neg l) (neg r) h, not_iff_comm]
  simp only [eval, Bool.not_eq_true', not_forall, not_or, not_exists, not_and, Bool.not_eq_true,
    exists_prop]

/-! ### Satisfaction -/

/-- **Satisfaction** of a formula on the window `[start, stop)` of a trace. A variable holds if
it is a true bit of the first step, of which an empty window has none. The temporal operators
quantify over the steps that their interval covers; each operand is considered on the window
from such a step, or from one before it, to the same end. -/
def Holds (t : Trace σ) (stop : Nat) : Formula → Nat → Prop
  | const value, _ => value = true
  | var id, start =>
    start < stop ∧ ∃ state, t.states[start]? = some state ∧ State.bit? state id.toNat = some true
  | neg x, start => ¬ x.Holds t stop start
  | connective .and l r, start => l.Holds t stop start ∧ r.Holds t stop start
  | connective .xor l r, start => ¬ (l.Holds t stop start ↔ r.Holds t stop start)
  | connective .or l r, start => l.Holds t stop start ∨ r.Holds t stop start
  | connective .implies l r, start => l.Holds t stop start → r.Holds t stop start
  | connective .equiv l r, start => l.Holds t stop start ↔ r.Holds t stop start
  | unary .finally I x, start => ∃ i, I.Covers start stop i ∧ x.Holds t stop i
  | unary .globally I x, start => ∀ i, I.Covers start stop i → x.Holds t stop i
  | binary .until l I r, start =>
    ∃ i, I.Covers start stop i ∧ r.Holds t stop i ∧
      ∀ j, start + I.lower.toNat ≤ j → j < i → l.Holds t stop j
  | binary .release l I r, start =>
    ∀ i, I.Covers start stop i →
      r.Holds t stop i ∨ ∃ k, start + I.lower.toNat ≤ k ∧ k < i ∧ l.Holds t stop k

/-- The evaluator reads the same bit. -/
theorem evalVar_iff (id : UInt32) (t : Trace σ) (start stop : Nat) :
    evalVar id t start stop = true ↔ (var id).Holds t stop start := by
  simp only [evalVar, Trace.get?, Holds, Bool.and_eq_true, decide_eq_true_iff]
  refine and_congr_right fun _ => ?_
  cases t.states[start]? with
  | none => simp
  | some state =>
      simp only [Option.bind_some, Option.some.injEq, exists_eq_left']
      rcases State.bit? state id.toNat with - | - | - <;> simp

/-- **The evaluator decides satisfaction** on all windows that end at a numbered step. The
induction is on the formula, for all first steps of the window at once. -/
theorem eval_iff_holds (t : Trace σ) {stop : Nat} (h : stop ≤ lastStep) (f : Formula)
    (start : Nat) : f.eval t stop start = true ↔ f.Holds t stop start := by
  induction f generalizing start with
  | const value => rfl
  | var id => exact evalVar_iff id t start stop
  | neg x ih => simp only [eval, Holds, Bool.not_eq_true', ← Bool.not_eq_true, ih]
  | connective op l r ihl ihr =>
      cases op with
      | and => simp only [eval, Holds, Bool.and_eq_true, ihl, ihr]
      | xor => rw [eval, Holds, bne_iff_ne, ne_eq, Bool.eq_iff_iff, ihl, ihr]
      | or => simp only [eval, Holds, Bool.or_eq_true, ihl, ihr]
      | implies =>
          simp only [eval, Holds, Bool.or_eq_true, Bool.not_eq_true', ← Bool.not_eq_true,
            ihl, ihr, ← imp_iff_not_or]
      | equiv => rw [eval, Holds, beq_iff_eq, Bool.eq_iff_iff, ihl, ihr]
  | unary op I x ih =>
      cases op with
      | «finally» => simp only [eval_finally_iff t start I x h, Holds, ih]
      | globally => simp only [eval_globally_iff t start I x h, Holds, ih]
  | binary op l I r ihl ihr =>
      cases op with
      | «until» => simp only [eval_until_iff t start I l r h, Holds, ihl, ihr]
      | release => simp only [eval_release_iff t start I l r h, Holds, ihl, ihr]

/-- On a window within the trace, nothing is cut. -/
theorem evaluateWindow_eq_eval (f : Formula) (t : Trace σ) {start stop : Nat}
    (hstart : start ≤ stop) (hstop : stop ≤ t.size) :
    f.evaluateWindow t start stop = f.eval t stop start := by
  rw [evaluateWindow, Nat.min_eq_left hstop, Nat.min_eq_left hstart]

/-- **Evaluation is satisfaction.** On every window of a trace whose steps can be numbered,
the value of a formula is whether it holds there, with offsets added without a bound. -/
theorem evaluateWindow_iff_holds (f : Formula) (t : Trace σ) (ht : t.size ≤ lastStep)
    {start stop : Nat} (hstart : start ≤ stop) (hstop : stop ≤ t.size) :
    f.evaluateWindow t start stop = true ↔ f.Holds t stop start := by
  have h := f.eval_iff_holds t (Nat.le_trans hstop ht) start
  rwa [evaluateWindow, Nat.min_eq_left hstop, Nat.min_eq_left hstart]

/-- An interval up to the last step, from a window that does not start at the first one: the
sum of the two is no position, and yet the operator holds as it should. -/
theorem until_holds_beyond_last_step :
    (Trace.ofList [[true, false], [true, false], [false, true]]).size ≤ lastStep ∧
      (binary .until (var 0) ⟨0, 18446744073709551615, by decide⟩ (var 1)).Holds
        (Trace.ofList [[true, false], [true, false], [false, true]]) 3 1 := by
  have ht : (Trace.ofList [[true, false], [true, false], [false, true]]).size ≤ lastStep := by
    decide
  exact ⟨ht, (evaluateWindow_iff_holds _ _ ht (by decide : 1 ≤ 3) (by decide)).mp (by decide)⟩

end Formula

end MissionTime
