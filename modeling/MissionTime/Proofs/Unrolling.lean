import MissionTime.Formula.Measure
import MissionTime.Proofs.Duality
import MissionTime.Proofs.Satisfaction

/-!
# Unrolling of the Temporal Operators

The evaluator scans the steps of a window that an interval covers. The same values come from
looking at one step at a time. As long as the interval lies ahead, a temporal operator passes
itself on to the following step, with an interval that is one step nearer. When the interval has
been reached, the first step is taken into account and the operator goes on with what is left of
the interval, until only offset zero is left. On an empty window the operator has a fixed value.

These laws leave no choice, for each of them goes to an operand or to a shorter window: there is
one evaluation that obeys them, and it is the one that unrolls. So to see that the evaluator
agrees with it, it is enough that the evaluator obeys the laws. That is seen for `until`, where
the laws say how the steps that the interval covers are those that it covers from the following
step on, with or without the first one. The other operators are expressed by `until`.

## Main definitions

* `Interval.next`: an interval of offsets as it looks from the following step.
* `Formula.Unrolls`: the laws.
* `Formula.unrolled`: evaluation by the laws.

## Main results

* `Formula.Unrolls.eq_unrolled`: the laws determine the values.
* `Formula.unrolls_eval`: the evaluator obeys the laws.
* `Formula.evaluateWindow_unrolls`: both for windows of a trace.
-/

namespace MissionTime

/-! ### The interval from the following step -/

/-- A bound as it looks from the following step: one less, or still zero. -/
def nextBound (bound : UInt64) : UInt64 :=
  if bound = 0 then 0 else bound - 1

theorem toNat_nextBound (bound : UInt64) : (nextBound bound).toNat = bound.toNat - 1 := by
  rw [nextBound]
  split
  · rename_i hzero
    rw [hzero]
    rfl
  · rename_i hpos
    have hone : 1 ≤ bound.toNat := Nat.one_le_iff_ne_zero.mpr fun h => hpos (UInt64.toNat_inj.mp h)
    exact UInt64.toNat_sub_of_le bound 1 (UInt64.le_iff_toNat_le.mpr hone)

namespace Interval

/-- The interval of the offsets from the following step. A bound of zero stays. -/
def next (I : Interval) : Interval where
  lower := nextBound I.lower
  upper := nextBound I.upper
  lower_le_upper := by
    rw [UInt64.le_iff_toNat_le, toNat_nextBound, toNat_nextBound]
    exact Nat.sub_le_sub_right (UInt64.le_iff_toNat_le.mp I.lower_le_upper) 1

theorem toNat_next_lower (I : Interval) : I.next.lower.toNat = I.lower.toNat - 1 :=
  toNat_nextBound I.lower

theorem toNat_next_upper (I : Interval) : I.next.upper.toNat = I.upper.toNat - 1 :=
  toNat_nextBound I.upper

variable (I : Interval) (start stop i : Nat)

/-- An interval ahead covers the same steps from the following step on. -/
theorem covers_next_iff (hlower : 0 < I.lower) :
    I.next.Covers (start + 1) stop i ↔ I.Covers start stop i := by
  have hpos : 0 < I.lower.toNat := UInt64.lt_iff_toNat_lt.mp hlower
  have hle : I.lower.toNat ≤ I.upper.toNat := UInt64.le_iff_toNat_le.mp I.lower_le_upper
  have hnext := I.toNat_next_lower
  have hnext' := I.toNat_next_upper
  constructor
  · rintro ⟨hl, hu, hstop⟩
    exact ⟨by omega, by omega, hstop⟩
  · rintro ⟨hl, hu, hstop⟩
    exact ⟨by omega, by omega, hstop⟩

/-- An interval that has been reached covers the first step, and what is left of it covers from
the following step on. -/
theorem covers_iff_of_lower_eq_zero (hlower : I.lower = 0) (hupper : 0 < I.upper) :
    I.Covers start stop i ↔ i = start ∧ start < stop ∨ I.next.Covers (start + 1) stop i := by
  have hzero : I.lower.toNat = 0 := UInt64.toNat_inj.mpr hlower
  have hpos : 0 < I.upper.toNat := UInt64.lt_iff_toNat_lt.mp hupper
  have hnext := I.toNat_next_lower
  have hnext' := I.toNat_next_upper
  constructor
  · rintro ⟨hl, hu, hstop⟩
    obtain hi | hi : i = start ∨ start + 1 ≤ i := by omega
    · exact Or.inl ⟨hi, by omega⟩
    · exact Or.inr ⟨by omega, by omega, hstop⟩
  · rintro (⟨rfl, hstop⟩ | ⟨hl, hu, hstop⟩)
    · exact ⟨by omega, by omega, hstop⟩
    · exact ⟨by omega, by omega, hstop⟩

/-- An interval that ends at offset zero covers the first step and no other. -/
theorem covers_iff_of_upper_eq_zero (hupper : I.upper = 0) :
    I.Covers start stop i ↔ i = start ∧ start < stop := by
  have hzero : I.upper.toNat = 0 := UInt64.toNat_inj.mpr hupper
  have hle : I.lower.toNat ≤ I.upper.toNat := UInt64.le_iff_toNat_le.mp I.lower_le_upper
  constructor
  · rintro ⟨hl, hu, hstop⟩
    exact ⟨by omega, by omega⟩
  · rintro ⟨rfl, hstop⟩
    exact ⟨by omega, by omega, hstop⟩

end Interval

/-! ### The laws -/

/-- The value of a unary temporal operator on an empty window. -/
def UnaryTemporal.onEmpty : UnaryTemporal → Bool
  | .finally => false
  | .globally => true

/-- The value of a binary temporal operator on an empty window. -/
def BinaryTemporal.onEmpty : BinaryTemporal → Bool
  | .until => false
  | .release => true

/-- The value of a unary temporal operator from the value of its operand at the first step and
its own value from the following step on. -/
def UnaryTemporal.unroll : UnaryTemporal → Bool → Bool → Bool
  | .finally, now, later => now || later
  | .globally, now, later => now && later

/-- The value of a binary temporal operator from the values of its operands at the first step and
its own value from the following step on. -/
def BinaryTemporal.unroll : BinaryTemporal → Bool → Bool → Bool → Bool
  | .until, left, right, later => right || (left && later)
  | .release, left, right, later => right && (left || later)

/-- The binary temporal operator that expresses a unary one, over a constant on the left. -/
def UnaryTemporal.toBinary : UnaryTemporal → BinaryTemporal
  | .finally => .until
  | .globally => .release

/-- The constant on the left of the binary operator that expresses a unary one. -/
def UnaryTemporal.leftValue : UnaryTemporal → Bool
  | .finally => true
  | .globally => false

theorem UnaryTemporal.onEmpty_toBinary (op : UnaryTemporal) : op.toBinary.onEmpty = op.onEmpty := by
  cases op <;> rfl

theorem UnaryTemporal.unroll_toBinary (op : UnaryTemporal) (now later : Bool) :
    op.toBinary.unroll op.leftValue now later = op.unroll now later := by
  cases op <;> rfl

variable {σ : Type} [State σ]

namespace Formula

/-- An evaluation of formulas on the windows `[start, stop)` that **unrolls** the temporal
operators, and treats leaves and propositional operators as usual. -/
structure Unrolls (t : Trace σ) (stop : Nat) (value : Formula → Nat → Bool) : Prop where
  const : ∀ {b start}, value (const b) start = b
  var : ∀ {id start}, value (var id) start = evalVar id t start stop
  neg : ∀ {x start}, value (neg x) start = !value x start
  connective : ∀ {op l r start},
    value (connective op l r) start = op.eval (value l start) (value r start)
  /-- An interval ahead comes one step nearer. -/
  unary_later : ∀ {op I x start}, start < stop → 0 < I.lower →
    value (unary op I x) start = value (unary op I.next x) (start + 1)
  /-- An interval that has been reached splits off the first step. -/
  unary_now : ∀ {op I x start}, start < stop → I.lower = 0 → 0 < I.upper →
    value (unary op I x) start =
      op.unroll (value x start) (value (unary op I.next x) (start + 1))
  /-- Of an interval of offset zero alone, the first step is all there is. -/
  unary_last : ∀ {op I x start}, start < stop → I.upper = 0 →
    value (unary op I x) start = value x start
  unary_empty : ∀ {op I x start}, stop ≤ start → value (unary op I x) start = op.onEmpty
  binary_later : ∀ {op l I r start}, start < stop → 0 < I.lower →
    value (binary op l I r) start = value (binary op l I.next r) (start + 1)
  binary_now : ∀ {op l I r start}, start < stop → I.lower = 0 → 0 < I.upper →
    value (binary op l I r) start =
      op.unroll (value l start) (value r start) (value (binary op l I.next r) (start + 1))
  binary_last : ∀ {op l I r start}, start < stop → I.upper = 0 →
    value (binary op l I r) start = value r start
  binary_empty : ∀ {op l I r start}, stop ≤ start → value (binary op l I r) start = op.onEmpty

/-- The value of a formula on the window `[start, stop)` of a trace, by **unrolling** the temporal
operators one step at a time. Each call goes to an operand or to a shorter window. -/
def unrolled (t : Trace σ) (stop : Nat) : Formula → Nat → Bool
  | .const value, _ => value
  | .var id, start => evalVar id t start stop
  | .neg x, start => !unrolled t stop x start
  | .connective op l r, start => op.eval (unrolled t stop l start) (unrolled t stop r start)
  | .unary op I x, start =>
    if start < stop then
      if 0 < I.lower then unrolled t stop (.unary op I.next x) (start + 1)
      else if 0 < I.upper then
        op.unroll (unrolled t stop x start) (unrolled t stop (.unary op I.next x) (start + 1))
      else unrolled t stop x start
    else op.onEmpty
  | .binary op l I r, start =>
    if start < stop then
      if 0 < I.lower then unrolled t stop (.binary op l I.next r) (start + 1)
      else if 0 < I.upper then
        op.unroll (unrolled t stop l start) (unrolled t stop r start)
          (unrolled t stop (.binary op l I.next r) (start + 1))
      else unrolled t stop r start
    else op.onEmpty
termination_by f start => (f.size, stop - start)
decreasing_by all_goals simp only [Prod.lex_def, size, true_and]; omega

/-- **The laws determine the values.** The induction follows the calls by which a formula is
unrolled. -/
theorem Unrolls.eq_unrolled {t : Trace σ} {stop : Nat} {value : Formula → Nat → Bool}
    (h : Unrolls t stop value) (f : Formula) (start : Nat) :
    value f start = f.unrolled t stop start := by
  have zero_of_not_pos {bound : UInt64} (hpos : ¬ 0 < bound) : bound = 0 :=
    UInt64.le_zero_iff.mp (UInt64.not_lt.mp hpos)
  fun_induction unrolled t stop f start with
  | case1 _ b => exact h.const
  | case2 start id => exact h.var
  | case3 x start ih => rw [h.neg, ih]
  | case4 op l r start ihl ihr => rw [h.connective, ihl, ihr]
  | case5 op I x start hstart hlower ih => rw [h.unary_later hstart hlower, ih]
  | case6 op I x start hstart hlower hupper ihx ih =>
      rw [h.unary_now hstart (zero_of_not_pos hlower) hupper, ihx, ih]
  | case7 op I x start hstart _ hupper ih =>
      rw [h.unary_last hstart (zero_of_not_pos hupper), ih]
  | case8 op I x start hstart => exact h.unary_empty (Nat.le_of_not_lt hstart)
  | case9 op l I r start hstart hlower ih => rw [h.binary_later hstart hlower, ih]
  | case10 op l I r start hstart hlower hupper ihl ihr ih =>
      rw [h.binary_now hstart (zero_of_not_pos hlower) hupper, ihl, ihr, ih]
  | case11 op l I r start hstart _ hupper ih =>
      rw [h.binary_last hstart (zero_of_not_pos hupper), ih]
  | case12 op l I r start hstart => exact h.binary_empty (Nat.le_of_not_lt hstart)

/-! ### The laws for `until` -/

section Until

variable (t : Trace σ) {stop : Nat} (start : Nat) {I : Interval} (l r : Formula)

theorem eval_until_later (h : stop ≤ lastStep) (hlower : 0 < I.lower) :
    (binary .until l I r).eval t stop start =
      (binary .until l I.next r).eval t stop (start + 1) := by
  have hpos : 0 < I.lower.toNat := UInt64.lt_iff_toNat_lt.mp hlower
  have hfirst : start + 1 + I.next.lower.toNat = start + I.lower.toNat := by
    rw [I.toNat_next_lower]
    omega
  rw [Bool.eq_iff_iff, eval_until_iff t _ _ _ _ h, eval_until_iff t _ _ _ _ h, hfirst]
  simp only [I.covers_next_iff _ _ _ hlower]

/-- At the first step `until` is decided by its right operand, or else it goes on if its left
operand is true there. -/
theorem eval_until_now (h : stop ≤ lastStep) (hstart : start < stop) (hlower : I.lower = 0)
    (hupper : 0 < I.upper) :
    (binary .until l I r).eval t stop start =
      (r.eval t stop start ||
        (l.eval t stop start && (binary .until l I.next r).eval t stop (start + 1))) := by
  have hzero : I.lower.toNat = 0 := UInt64.toNat_inj.mpr hlower
  have hnext : I.next.lower.toNat = 0 := by rw [I.toNat_next_lower, hzero]
  have hcovers (i : Nat) := I.covers_iff_of_lower_eq_zero start stop i hlower hupper
  rw [Bool.eq_iff_iff, Bool.or_eq_true, Bool.and_eq_true, eval_until_iff t _ _ _ _ h,
    eval_until_iff t _ _ _ _ h, hzero, hnext, Nat.add_zero, Nat.add_zero]
  constructor
  · rintro ⟨i, hi, hr, hl⟩
    obtain ⟨rfl, -⟩ | hlater := (hcovers i).mp hi
    · exact Or.inl hr
    · have hlt : start < i := by have := hlater.lower_le; omega
      exact Or.inr ⟨hl start (Nat.le_refl start) hlt, i, hlater, hr,
        fun j hj hji => hl j (by omega) hji⟩
  · rintro (hr | ⟨hl, i, hi, hr, hrest⟩)
    · exact ⟨start, (hcovers start).mpr (Or.inl ⟨rfl, hstart⟩), hr, fun j hj hji => by omega⟩
    · refine ⟨i, (hcovers i).mpr (Or.inr hi), hr, fun j hj hji => ?_⟩
      obtain rfl | hlt := Nat.eq_or_lt_of_le hj
      · exact hl
      · exact hrest j hlt hji

theorem eval_until_last (h : stop ≤ lastStep) (hstart : start < stop) (hupper : I.upper = 0) :
    (binary .until l I r).eval t stop start = r.eval t stop start := by
  have hcovers (i : Nat) := I.covers_iff_of_upper_eq_zero start stop i hupper
  rw [Bool.eq_iff_iff, eval_until_iff t _ _ _ _ h]
  constructor
  · rintro ⟨i, hi, hr, -⟩
    obtain ⟨rfl, -⟩ := (hcovers i).mp hi
    exact hr
  · intro hr
    exact ⟨start, (hcovers start).mpr ⟨rfl, hstart⟩, hr, fun j hj hji => by omega⟩

theorem eval_until_empty (hstop : stop ≤ start) :
    (binary .until l I r).eval t stop start = false := by
  have hshort : I.reachedBy start stop = false := decide_eq_false (by omega)
  rw [eval, hshort, Bool.false_and]

end Until

/-! ### The laws for the other operators -/

section Operators

variable (t : Trace σ) {stop : Nat} (start : Nat) {op : BinaryTemporal} {I : Interval}
  (l r : Formula)

theorem eval_binary_later (h : stop ≤ lastStep) (hlower : 0 < I.lower) :
    (binary op l I r).eval t stop start = (binary op l I.next r).eval t stop (start + 1) := by
  cases op with
  | «until» => exact eval_until_later t start l r h hlower
  | release => rw [eval_release, eval_release, eval_until_later t start _ _ h hlower]

theorem eval_binary_now (h : stop ≤ lastStep) (hstart : start < stop) (hlower : I.lower = 0)
    (hupper : 0 < I.upper) :
    (binary op l I r).eval t stop start =
      op.unroll (l.eval t stop start) (r.eval t stop start)
        ((binary op l I.next r).eval t stop (start + 1)) := by
  cases op with
  | «until» => exact eval_until_now t start l r h hstart hlower hupper
  | release =>
      have hneg (x : Formula) : (neg x).eval t stop start = !x.eval t stop start := rfl
      rw [eval_release, eval_release, eval_until_now t start _ _ h hstart hlower hupper, hneg,
        hneg, Bool.not_or, Bool.not_and, Bool.not_not, Bool.not_not, BinaryTemporal.unroll]

theorem eval_binary_last (h : stop ≤ lastStep) (hstart : start < stop) (hupper : I.upper = 0) :
    (binary op l I r).eval t stop start = r.eval t stop start := by
  cases op with
  | «until» => exact eval_until_last t start l r h hstart hupper
  | release =>
      rw [eval_release, eval_until_last t start _ _ h hstart hupper, eval, Bool.not_not]

theorem eval_binary_empty (hstop : stop ≤ start) :
    (binary op l I r).eval t stop start = op.onEmpty := by
  cases op with
  | «until» => exact eval_until_empty t start l r hstop
  | release =>
      rw [eval_release, eval_until_empty t start _ _ hstop, Bool.not_false,
        BinaryTemporal.onEmpty]

/-- A unary temporal operator is a binary one over a constant. -/
theorem eval_unary_eq_binary (u : UnaryTemporal) (I : Interval) (x : Formula) :
    (unary u I x).eval t stop start =
      (binary u.toBinary (const u.leftValue) I x).eval t stop start := by
  cases u with
  | «finally» => exact eval_finally t stop start I x
  | globally => exact eval_globally_eq_release t stop start I x

end Operators

/-- **The evaluator unrolls** the temporal operators, on all windows that end at a numbered
step. -/
theorem unrolls_eval (t : Trace σ) {stop : Nat} (h : stop ≤ lastStep) :
    Unrolls t stop fun f start => f.eval t stop start where
  const := rfl
  var := rfl
  neg := rfl
  connective := eval_connective t stop _ _ _ _
  unary_later {op I x start} hstart hlower := by
    rw [eval_unary_eq_binary, eval_unary_eq_binary, eval_binary_later t start _ x h hlower]
  unary_now {op I x start} hstart hlower hupper := by
    rw [eval_unary_eq_binary, eval_unary_eq_binary,
      eval_binary_now t start _ x h hstart hlower hupper]
    exact op.unroll_toBinary _ _
  unary_last {op I x start} hstart hupper := by
    rw [eval_unary_eq_binary, eval_binary_last t start _ x h hstart hupper]
  unary_empty {op I x start} hstop := by
    rw [eval_unary_eq_binary, eval_binary_empty t start _ x hstop, op.onEmpty_toBinary]
  binary_later _ hlower := eval_binary_later t _ _ _ h hlower
  binary_now hstart hlower hupper := eval_binary_now t _ _ _ h hstart hlower hupper
  binary_last hstart hupper := eval_binary_last t _ _ _ h hstart hupper
  binary_empty hstop := eval_binary_empty t _ _ _ hstop

/-! ### Windows of a trace -/

/-- On an empty window it does not matter where the window starts. -/
theorem Unrolls.eq_of_empty {t : Trace σ} {stop : Nat} {value : Formula → Nat → Bool}
    (h : Unrolls t stop value) (f : Formula) {start start' : Nat} (hstart : stop ≤ start)
    (hstart' : stop ≤ start') : value f start = value f start' := by
  induction f with
  | const b => rw [h.const, h.const]
  | var id =>
      rw [h.var, h.var, evalVar, evalVar, decide_eq_false (Nat.not_lt.mpr hstart),
        decide_eq_false (Nat.not_lt.mpr hstart'), Bool.false_and, Bool.false_and]
  | neg x ih => rw [h.neg, h.neg, ih]
  | connective op l r ihl ihr => rw [h.connective, h.connective, ihl, ihr]
  | unary op I x ih => rw [h.unary_empty hstart, h.unary_empty hstart']
  | binary op l I r ihl ihr => rw [h.binary_empty hstart, h.binary_empty hstart']

/-- On a window that ends within the trace, nothing is cut that matters. -/
theorem evaluateWindow_eq_eval_of_stop_le (f : Formula) (t : Trace σ) (ht : t.size ≤ lastStep)
    (start : Nat) {stop : Nat} (hstop : stop ≤ t.size) :
    f.evaluateWindow t start stop = f.eval t stop start := by
  obtain hstart | hstart := Nat.le_total start stop
  · exact f.evaluateWindow_eq_eval t hstart hstop
  · rw [evaluateWindow, Nat.min_eq_left hstop, Nat.min_eq_right hstart]
    exact (unrolls_eval t (Nat.le_trans hstop ht)).eq_of_empty f (Nat.le_refl stop) hstart

/-- **Range scans agree with unrolling.** On the windows of a trace whose steps can be numbered,
evaluation obeys the laws by which the temporal operators unroll step by step. So it is the same as
evaluation by these laws, on windows with any bounds, and for intervals with any bounds. -/
theorem evaluateWindow_unrolls (t : Trace σ) (ht : t.size ≤ lastStep) :
    (∀ stop ≤ t.size, Unrolls t stop fun f start => f.evaluateWindow t start stop) ∧
      ∀ (f : Formula) (start stop : Nat),
        f.evaluateWindow t start stop =
          f.unrolled t (min stop t.size) (min start (min stop t.size)) := by
  constructor
  · intro stop hstop
    simp only [evaluateWindow_eq_eval_of_stop_le _ t ht _ hstop]
    exact unrolls_eval t (Nat.le_trans hstop ht)
  · intro f start stop
    have hlast : min stop t.size ≤ lastStep := Nat.le_trans (Nat.min_le_right _ _) ht
    exact (unrolls_eval t hlast).eq_unrolled f _

/-- An interval from offset one to the last step comes one step nearer, on a trace of three
steps, and then splits off the step that it has reached. -/
theorem until_unrolls :
    let t : Trace (List Bool) := .ofList [[true, false], [true, false], [false, true]]
    let f : Formula := binary .until (var 0) ⟨1, 18446744073709551615, by decide⟩ (var 1)
    let g : Formula := binary .until (var 0) ⟨0, 18446744073709551614, by decide⟩ (var 1)
    let k : Formula := binary .until (var 0) ⟨0, 18446744073709551613, by decide⟩ (var 1)
    t.size ≤ lastStep ∧ f.evaluateWindow t 0 3 = g.evaluateWindow t 1 3 ∧
      g.evaluateWindow t 1 3 =
        ((var 1).evaluateWindow t 1 3 || ((var 0).evaluateWindow t 1 3 &&
          k.evaluateWindow t 2 3)) ∧
      f.evaluateWindow t 0 3 = f.unrolled t 3 0 := by
  intro t f g k
  have ht : t.size ≤ lastStep := by decide
  obtain ⟨hlaws, hunrolled⟩ := evaluateWindow_unrolls t ht
  have hlaw := hlaws 3 (by decide)
  exact ⟨ht, hlaw.binary_later (by decide) (by decide),
    hlaw.binary_now (by decide) (by decide) (by decide), hunrolled f 0 3⟩

end Formula

end MissionTime
