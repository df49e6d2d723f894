import MissionTime.Proofs.Satisfaction

/-!
# Evaluation within Its Windows

Evaluation relies on windows that lie within the trace and have their bounds in order. On such a
window the steps that an interval covers are computed exactly, although positions stop at the last
one: they follow each other without a gap, and there is one if the window reaches the interval.
Each of them is in the window, so that the operands are evaluated on windows of the same kind.

That evaluation never leaves these windows is shown by an evaluator that looks: where a window is
out of order or goes past the trace, or a difference of positions would be negative, it has no
value. On every window within the trace it has one, and it is the value of the formula.

## Main definitions

* `Trace.checkWindow`, `Interval.reachedBy?`, `Formula.evalChecked`: evaluation that checks what it
  relies on.

## Main results

* `Interval.window_eq_range'`: the steps that an interval covers, without saturation.
* `Formula.evalChecked_eq_some`: on windows within the trace, nothing is found amiss.
* `Formula.evaluation_stays_within_windows`: windows and the evaluation on them.
-/

namespace MissionTime

variable {σ : Type} [State σ]

/-! ### The steps of a window in order -/

namespace Interval

/-- The steps that an interval covers follow each other from the lower offset on, up to the upper
offset or to the end of the window. Where a sum of positions is cut off, there are none left. -/
theorem window_eq_range' (I : Interval) {start stop : Nat} (h : stop ≤ lastStep) :
    I.window start stop = List.range' (start + I.lower.toNat)
      (min (start + I.upper.toNat + 1) stop - (start + I.lower.toNat)) := by
  by_cases hfirst : start + I.lower.toNat ≤ lastStep
  · have hbegin : stepAfter start I.lower.toNat = start + I.lower.toNat := Nat.min_eq_left hfirst
    have hlength : min (stepAfter (stepAfter start I.upper.toNat) 1) stop =
        min (start + I.upper.toNat + 1) stop := by
      simp only [stepAfter]
      omega
    simp only [window, hbegin, hlength]
  · have hnone : min (start + I.upper.toNat + 1) stop - (start + I.lower.toNat) = 0 := by omega
    have hshort : min (stepAfter (stepAfter start I.upper.toNat) 1) stop -
        stepAfter start I.lower.toNat = 0 := by
      simp only [stepAfter]
      omega
    simp only [window, hnone, hshort, List.range'_zero]

/-- The lower offset is the first one. -/
theorem lower_toNat_le (I : Interval) : I.lower.toNat ≤ I.upper.toNat :=
  UInt64.le_iff_toNat_le.mp I.lower_le_upper

/-- There is a covered step if the window reaches the interval. -/
theorem window_ne_nil_iff (I : Interval) (start : Nat) {stop : Nat} (h : stop ≤ lastStep) :
    I.window start stop ≠ [] ↔ I.reachedBy start stop = true := by
  have hle := I.lower_toNat_le
  rw [I.window_eq_range' h, I.reachedBy_iff, Ne, List.range'_eq_nil_iff]
  omega

/-- The first covered step is the one at the lower offset. -/
theorem head?_window (I : Interval) {start stop : Nat} (h : stop ≤ lastStep)
    (hreached : I.reachedBy start stop = true) :
    (I.window start stop).head? = some (start + I.lower.toNat) := by
  have hle := I.lower_toNat_le
  rw [I.reachedBy_iff] at hreached
  rw [I.window_eq_range' h, List.head?_range', if_neg (by omega)]

theorem lt_stop_of_mem_window (I : Interval) {start stop i : Nat} (h : stop ≤ lastStep)
    (hi : i ∈ I.window start stop) : i < stop :=
  ((I.mem_window h).mp hi).lt_stop

/-- No covered step comes before the start of the window. -/
theorem Covers.start_le {I : Interval} {start stop i : Nat} (h : I.Covers start stop i) :
    start ≤ i :=
  Nat.le_trans (Nat.le_add_right start _) h.lower_le

end Interval

/-! ### Evaluation with its assumptions checked -/

/-- Nothing, if a window has its bounds in order and is within the trace. -/
def Trace.checkWindow (t : Trace σ) (start stop : Nat) : Option Unit :=
  if start ≤ stop ∧ stop ≤ t.size then some () else none

theorem Trace.checkWindow_eq_some {τ : Type} {t : Trace τ} {start stop : Nat}
    (hstart : start ≤ stop) (hstop : stop ≤ t.size) : t.checkWindow start stop = some () :=
  if_pos ⟨hstart, hstop⟩

/-- Whether a window reaches an interval, if the bounds of the window are in order. -/
def Interval.reachedBy? (I : Interval) (start stop : Nat) : Option Bool :=
  if start ≤ stop then some (I.reachedBy start stop) else none

theorem Interval.reachedBy?_eq_some (I : Interval) {start stop : Nat} (h : start ≤ stop) :
    I.reachedBy? start stop = some (I.reachedBy start stop) :=
  if_pos h

namespace Formula

/-- **Checked evaluation.** Like `eval`, but a call for a window that is not within the trace has no
value, and neither has one that takes the difference of positions that are not in order. -/
def evalChecked (t : Trace σ) (stop : Nat) (f : Formula) (start : Nat) : Option Bool := do
  t.checkWindow start stop
  match f with
  | const value => return value
  | var id => return evalVar id t start stop
  | neg x => return !(← x.evalChecked t stop start)
  | connective .and l r =>
    if ← l.evalChecked t stop start then r.evalChecked t stop start else return false
  | connective .xor l r =>
    return (← l.evalChecked t stop start) != (← r.evalChecked t stop start)
  | connective .or l r =>
    if ← l.evalChecked t stop start then return true else r.evalChecked t stop start
  | connective .implies l r =>
    if ← l.evalChecked t stop start then r.evalChecked t stop start else return true
  | connective .equiv l r =>
    return (← l.evalChecked t stop start) == (← r.evalChecked t stop start)
  | unary .finally I x =>
    if ← I.reachedBy? start stop then
      (I.window start stop).anyM fun i => x.evalChecked t stop i
    else return false
  | unary .globally I x =>
    if ← I.reachedBy? start stop then
      (I.window start stop).allM fun i => x.evalChecked t stop i
    else return true
  | binary .until l I r =>
    if ← I.reachedBy? start stop then
      match ← (I.window start stop).findM? fun i => r.evalChecked t stop i with
      | some first => (I.window start first).allM fun i => l.evalChecked t stop i
      | none => return false
    else return false
  | binary .release l I r =>
    if ← I.reachedBy? start stop then
      match ← (I.window start stop).findM? fun i => not <$> r.evalChecked t stop i with
      | some failing => (I.window start failing).anyM fun i => l.evalChecked t stop i
      | none => return true
    else return true

/-! ### Searches by tests that have a value -/

section Searches

variable {α : Type} {test : α → Option Bool} {value : α → Bool} {as : List α}

theorem anyM_eq_some (h : ∀ a ∈ as, test a = some (value a)) :
    as.anyM test = some (as.any value) := by
  induction as with
  | nil => rfl
  | cons a as ih =>
      obtain ⟨ha, has⟩ := List.forall_mem_cons.mp h
      rw [List.anyM_cons, ha, ih has, List.any_cons]
      cases value a <;> rfl

theorem allM_eq_some (h : ∀ a ∈ as, test a = some (value a)) :
    as.allM test = some (as.all value) := by
  induction as with
  | nil => rfl
  | cons a as ih =>
      obtain ⟨ha, has⟩ := List.forall_mem_cons.mp h
      rw [List.allM_cons, ha, ih has, List.all_cons]
      cases value a <;> rfl

theorem findM?_eq_some (h : ∀ a ∈ as, test a = some (value a)) :
    as.findM? test = some (as.find? value) := by
  induction as with
  | nil => rfl
  | cons a as ih =>
      obtain ⟨ha, has⟩ := List.forall_mem_cons.mp h
      rw [List.findM?, ha, ih has, List.find?_cons]
      cases value a <;> rfl

end Searches

/-! ### Windows within the trace -/

section Within

variable {t : Trace σ} {start stop : Nat} {l r x : Formula}

/-- A temporal operator with one operand evaluates it from covered steps on, which are in the
window. -/
theorem evalChecked_unary (hstop : stop ≤ t.size) (hlast : stop ≤ lastStep)
    (hx : ∀ i ≤ stop, x.evalChecked t stop i = some (x.eval t stop i)) (op : UnaryTemporal)
    (I : Interval) (hstart : start ≤ stop) :
    (unary op I x).evalChecked t stop start = some ((unary op I x).eval t stop start) := by
  have hcovered : ∀ i ∈ I.window start stop, x.evalChecked t stop i = some (x.eval t stop i) :=
    fun i hi => hx i (Nat.le_of_lt (I.lt_stop_of_mem_window hlast hi))
  cases op with
  | «finally» =>
      rw [evalChecked, Trace.checkWindow_eq_some hstart hstop, I.reachedBy?_eq_some hstart,
        anyM_eq_some hcovered, eval]
      cases I.reachedBy start stop <;> rfl
  | globally =>
      rw [evalChecked, Trace.checkWindow_eq_some hstart hstop, I.reachedBy?_eq_some hstart,
        allM_eq_some hcovered, eval]
      cases I.reachedBy start stop <;> rfl

/-- One with two operands evaluates the left one only from covered steps before the one that is
found for the right one. -/
theorem evalChecked_binary (hstop : stop ≤ t.size) (hlast : stop ≤ lastStep)
    (hl : ∀ i ≤ stop, l.evalChecked t stop i = some (l.eval t stop i))
    (hr : ∀ i ≤ stop, r.evalChecked t stop i = some (r.eval t stop i)) (op : BinaryTemporal)
    (I : Interval) (hstart : start ≤ stop) :
    (binary op l I r).evalChecked t stop start = some ((binary op l I r).eval t stop start) := by
  have hright : ∀ i ∈ I.window start stop, r.evalChecked t stop i = some (r.eval t stop i) :=
    fun i hi => hr i (Nat.le_of_lt (I.lt_stop_of_mem_window hlast hi))
  have hleft {found : Nat} (hfound : found ∈ I.window start stop) :
      ∀ i ∈ I.window start found, l.evalChecked t stop i = some (l.eval t stop i) := by
    intro i hi
    have hle := Nat.le_of_lt (I.lt_stop_of_mem_window hlast hfound)
    have hlt := I.lt_stop_of_mem_window (Nat.le_trans hle hlast) hi
    exact hl i (Nat.le_trans (Nat.le_of_lt hlt) hle)
  cases op with
  | «until» =>
      rw [evalChecked, Trace.checkWindow_eq_some hstart hstop, I.reachedBy?_eq_some hstart,
        findM?_eq_some hright, eval]
      cases I.reachedBy start stop with
      | false => rfl
      | true =>
          rcases hfind : (I.window start stop).find? fun i => r.eval t stop i with _ | first
          · rfl
          · exact allM_eq_some (hleft (List.mem_of_find?_eq_some hfind))
  | release =>
      have hfails : ∀ i ∈ I.window start stop,
          not <$> r.evalChecked t stop i = some (!r.eval t stop i) := by
        intro i hi
        rw [hright i hi]
        rfl
      rw [evalChecked, Trace.checkWindow_eq_some hstart hstop, I.reachedBy?_eq_some hstart,
        findM?_eq_some hfails, eval]
      cases I.reachedBy start stop with
      | false => rfl
      | true =>
          rcases hfind : (I.window start stop).find? fun i => !r.eval t stop i with _ | failing
          · rfl
          · exact anyM_eq_some (hleft (List.mem_of_find?_eq_some hfind))

/-- **On windows within the trace nothing is found amiss**: checked evaluation has the value of the
formula. Induction on the formula, for all starts at once. -/
theorem evalChecked_eq_some (hstop : stop ≤ t.size) (hlast : stop ≤ lastStep) (f : Formula)
    (hstart : start ≤ stop) : f.evalChecked t stop start = some (f.eval t stop start) := by
  induction f generalizing start with
  | const value | var id =>
      rw [evalChecked, Trace.checkWindow_eq_some hstart hstop]
      rfl
  | neg x ih =>
      rw [evalChecked, Trace.checkWindow_eq_some hstart hstop, ih hstart]
      rfl
  | connective op l r ihl ihr =>
      cases op <;>
        rw [evalChecked, Trace.checkWindow_eq_some hstart hstop, ihl hstart, ihr hstart, eval] <;>
        cases l.eval t stop start <;> rfl
  | unary op I x ih => exact evalChecked_unary hstop hlast (fun _ => ih) op I hstart
  | binary op l I r ihl ihr =>
      exact evalChecked_binary hstop hlast (fun _ => ihl) (fun _ => ihr) op I hstart

end Within

/-- Checked evaluation on any window, cut to the trace. -/
def evaluateWindowChecked (f : Formula) (t : Trace σ) (start stop : Nat) : Option Bool :=
  let stop := min stop t.size
  f.evalChecked t stop (min start stop)

/-- **Evaluation stays within its windows.** On a window that ends at a numbered step, the steps
that an interval covers are those whose distance from the start is in the interval, with sums that
have no bound. There are some if the window reaches the interval, and they begin at the lower offset
then. All of them are in the window. So wherever evaluation starts within a trace, and on any window
that is cut to it, it calls itself on windows within the trace only and takes no difference of
positions that are not in order. -/
theorem evaluation_stays_within_windows :
    (∀ (I : Interval) (start stop : Nat), start ≤ stop → stop ≤ lastStep →
      (∀ i, i ∈ I.window start stop ↔
        start + I.lower.toNat ≤ i ∧ i ≤ start + I.upper.toNat ∧ i < stop) ∧
      (I.window start stop ≠ [] ↔ I.reachedBy start stop = true) ∧
      (I.reachedBy start stop = true →
        (I.window start stop).head? = some (start + I.lower.toNat)) ∧
      ∀ i ∈ I.window start stop, start ≤ i ∧ i < stop) ∧
    ∀ (f : Formula) (t : Trace σ), t.size ≤ lastStep →
      (∀ start stop, start ≤ stop → stop ≤ t.size →
        f.evalChecked t stop start = some (f.eval t stop start)) ∧
      ∀ start stop,
        f.evaluateWindowChecked t start stop = some (f.evaluateWindow t start stop) := by
  refine ⟨fun I start stop hstart hlast => ⟨fun i => ?_, I.window_ne_nil_iff start hlast,
    I.head?_window hlast, fun i hi => ?_⟩, fun f t ht => ⟨fun start stop hstart hstop => ?_,
    fun start stop => ?_⟩⟩
  · rw [I.mem_window hlast]
    exact ⟨fun h => ⟨h.lower_le, h.le_upper, h.lt_stop⟩, fun h => ⟨h.1, h.2.1, h.2.2⟩⟩
  · have hcovers := (I.mem_window hlast).mp hi
    exact ⟨hcovers.start_le, hcovers.lt_stop⟩
  · exact f.evalChecked_eq_some hstop (Nat.le_trans hstop ht) hstart
  · have hstop : min stop t.size ≤ t.size := Nat.min_le_right _ _
    exact f.evalChecked_eq_some hstop (Nat.le_trans hstop ht) (Nat.min_le_right _ _)

/-- An interval from whose lower offset the last step is reached, where the sum with the upper
offset is no position; and a formula with such an interval on a window in the middle of a trace. -/
theorem evaluation_stays_within_windows_at_last_step :
    let I : Interval := ⟨18446744073709551613, 18446744073709551615, by decide⟩
    let f : Formula := binary .until (var 0) ⟨0, 18446744073709551615, by decide⟩ (var 1)
    let t : Trace (List Bool) := .ofList [[true, false], [true, false], [false, true]]
    I.reachedBy 1 lastStep = true ∧ (I.window 1 lastStep).head? = some 18446744073709551614 ∧
      f.evalChecked t 3 1 = some (f.eval t 3 1) := by
  intro I f t
  have ht : t.size ≤ lastStep := by decide
  obtain ⟨hwindow, heval⟩ := evaluation_stays_within_windows (σ := List Bool)
  have hreached : I.reachedBy 1 lastStep = true := by decide
  obtain ⟨-, -, hfirst, -⟩ := hwindow I 1 lastStep (by decide) (Nat.le_refl _)
  have hsum : 1 + I.lower.toNat = 18446744073709551614 := by decide
  exact ⟨hreached, hsum ▸ hfirst hreached, (heval f t ht).1 1 3 (by decide) (by decide)⟩

end Formula

end MissionTime
