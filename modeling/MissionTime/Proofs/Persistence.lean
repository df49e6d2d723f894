import MissionTime.Proofs.Duality
import MissionTime.Proofs.Satisfaction

/-!
# Persistence of Verdicts

A window that is made longer can make a formula true that was false, or false that was true. In
two fragments one of the two cannot happen. A formula whose only temporal operators are `finally`
and `until` is true because of steps that are there, and they stay; so if it is true on a window
that is not empty, it is true on all longer ones. One whose only temporal operators are `globally`
and `release` stays false in the same way. In both fragments negation stands only in front of
leaves.

Windows that are not empty are needed for the leaves: an empty window makes a variable false that
its first step may make true. The operands of a temporal operator are considered only from steps
of the window on, and so on windows that are not empty either.

The two fragments are dual to each other, and the second statement is the first one for the dual
formula.

## Main definitions

* `Formula.Fragment`: the formulas whose temporal operators are two given ones.
* `Formula.Cosafe`, `Formula.Safe`: the two fragments.

## Main results

* `Formula.Cosafe.holds_of_le`: a formula that holds keeps holding on longer windows.
* `Formula.Safe.cosafe_dual`: the fragments are dual to each other.
* `Formula.evaluateWindow_verdict_persists`: persistence of both verdicts.
-/

namespace MissionTime

variable {σ : Type} [State σ]

/-- What an interval covers stays covered if the window goes on. -/
theorem Interval.Covers.mono {I : Interval} {start stop stop' i : Nat}
    (h : I.Covers start stop i) (hle : stop ≤ stop') : I.Covers start stop' i :=
  ⟨h.lower_le, h.le_upper, Nat.lt_of_lt_of_le h.lt_stop hle⟩

namespace Formula

/-! ### The fragments -/

/-- The formulas that are built from constants, variables, and negations of these, by conjunction,
disjunction, one unary and one binary temporal operator. -/
inductive Fragment (u : UnaryTemporal) (b : BinaryTemporal) : Formula → Prop
  | const (value : Bool) : Fragment u b (const value)
  | var (id : UInt32) : Fragment u b (var id)
  | negConst (value : Bool) : Fragment u b (neg (const value))
  | negVar (id : UInt32) : Fragment u b (neg (var id))
  | and {l r : Formula} : Fragment u b l → Fragment u b r → Fragment u b (connective .and l r)
  | or {l r : Formula} : Fragment u b l → Fragment u b r → Fragment u b (connective .or l r)
  | unary (I : Interval) {x : Formula} : Fragment u b x → Fragment u b (unary u I x)
  | binary (I : Interval) {l r : Formula} :
    Fragment u b l → Fragment u b r → Fragment u b (binary b l I r)

/-- The formulas whose temporal operators are `finally` and `until`, which ask for a step. -/
abbrev Cosafe : Formula → Prop := Fragment .finally .until

/-- The formulas whose temporal operators are `globally` and `release`, which a step can
refute. -/
abbrev Safe : Formula → Prop := Fragment .globally .release

/-- The dual of a formula of the one fragment is a formula of the other one. -/
theorem Safe.cosafe_dual {f : Formula} (hf : f.Safe) : f.dual.Cosafe := by
  induction hf with
  | const value => exact .const _
  | var id => exact .negVar id
  | negConst value => exact .const value
  | negVar id => exact .var id
  | and _ _ ihl ihr => exact .or ihl ihr
  | or _ _ ihl ihr => exact .and ihl ihr
  | unary I _ ih => exact .unary I ih
  | binary I _ _ ihl ihr => exact .binary I ihl ihr

/-! ### Longer windows -/

/-- **A formula that asks only for steps that are there keeps holding** if the window goes on.
Induction on the formula, for all starts of nonempty windows at once: the operands of a temporal
operator are considered at steps of the shorter window. -/
theorem Cosafe.holds_of_le (t : Trace σ) {stop stop' : Nat} (hle : stop ≤ stop') {f : Formula}
    (hf : f.Cosafe) {start : Nat} (hstart : start < stop) (h : f.Holds t stop start) :
    f.Holds t stop' start := by
  induction hf generalizing start with
  | const value => exact h
  | var id => exact ⟨Nat.lt_of_lt_of_le hstart hle, h.2⟩
  | negConst value => exact h
  | negVar id => exact fun hvar => h ⟨hstart, hvar.2⟩
  | and _ _ ihl ihr => exact ⟨ihl hstart h.1, ihr hstart h.2⟩
  | or _ _ ihl ihr => exact h.imp (ihl hstart) (ihr hstart)
  | unary I _ ih =>
      obtain ⟨i, hi, hx⟩ := h
      exact ⟨i, hi.mono hle, ih hi.lt_stop hx⟩
  | binary I _ _ ihl ihr =>
      obtain ⟨i, hi, hr, hl⟩ := h
      refine ⟨i, hi.mono hle, ihr hi.lt_stop hr, fun j hj hji => ?_⟩
      exact ihl (Nat.lt_trans hji hi.lt_stop) (hl j hj hji)

/-- The evaluator keeps the verdict that such a formula is true. -/
theorem Cosafe.eval_of_le (t : Trace σ) {stop stop' : Nat} (hle : stop ≤ stop')
    (hlast : stop' ≤ lastStep) {f : Formula} (hf : f.Cosafe) {start : Nat} (hstart : start < stop)
    (h : f.eval t stop start = true) : f.eval t stop' start = true := by
  rw [eval_iff_holds t (Nat.le_trans hle hlast)] at h
  rw [eval_iff_holds t hlast]
  exact hf.holds_of_le t hle hstart h

/-- **Longer windows do not revoke verdicts of the one-sided fragments.** If a formula with no
temporal operators but `finally` and `until` is true on a nonempty window, it is true on every
longer window with the same start; if one with no temporal operators but `globally` and `release`
is false, it stays false. -/
theorem evaluateWindow_verdict_persists (t : Trace σ) (ht : t.size ≤ lastStep)
    {start stop stop' : Nat} (hstart : start < stop) (hle : stop ≤ stop') (hsize : stop' ≤ t.size)
    (f : Formula) :
    (f.Cosafe → f.evaluateWindow t start stop = true → f.evaluateWindow t start stop' = true) ∧
      (f.Safe → f.evaluateWindow t start stop = false →
        f.evaluateWindow t start stop' = false) := by
  have hshort : f.evaluateWindow t start stop = f.eval t stop start :=
    f.evaluateWindow_eq_eval t (Nat.le_of_lt hstart) (Nat.le_trans hle hsize)
  have hlong : f.evaluateWindow t start stop' = f.eval t stop' start :=
    f.evaluateWindow_eq_eval t (Nat.le_trans (Nat.le_of_lt hstart) hle) hsize
  have hlast : stop' ≤ lastStep := Nat.le_trans hsize ht
  rw [hshort, hlong]
  refine ⟨fun hf => hf.eval_of_le t hle hlast hstart, fun hf h => ?_⟩
  have hdual : f.dual.eval t stop start = true := by rw [eval_dual, h, Bool.not_false]
  have hkept := hf.cosafe_dual.eval_of_le t hle hlast hstart hdual
  rwa [eval_dual, Bool.not_eq_true'] at hkept

/-- A formula that is true because of the second step, and one that is false because of it, on the
window of two steps and on the whole trace. -/
theorem until_verdict_persists :
    let t : Trace (List Bool) := .ofList [[true, false], [false, true], [false, false]]
    let f : Formula := binary .until (var 0) ⟨0, 5, by decide⟩ (var 1)
    let g : Formula := binary .release (neg (var 0)) ⟨0, 5, by decide⟩ (neg (var 1))
    t.size ≤ lastStep ∧ f.Cosafe ∧ g.Safe ∧ f.evaluateWindow t 0 2 = true ∧
      f.evaluateWindow t 0 3 = true ∧ g.evaluateWindow t 0 2 = false ∧
      g.evaluateWindow t 0 3 = false := by
  intro t f g
  have ht : t.size ≤ lastStep := by decide
  have hf : f.Cosafe := .binary _ (.var 0) (.var 1)
  have hg : g.Safe := .binary _ (.negVar 0) (.negVar 1)
  have htrue : f.evaluateWindow t 0 2 = true := by decide
  have hfalse : g.evaluateWindow t 0 2 = false := by decide
  have persists := evaluateWindow_verdict_persists t ht (by decide : 0 < 2) (by decide : 2 ≤ 3)
    (by decide)
  exact ⟨ht, hf, hg, htrue, (persists f).1 hf htrue, hfalse, (persists g).2 hg hfalse⟩

end Formula

end MissionTime
