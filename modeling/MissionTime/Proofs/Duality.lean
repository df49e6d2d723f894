import MissionTime.Evaluation

/-!
# Duality of the Temporal Operators

`release` is the dual of `until`, and `globally` that of `finally`: each is false exactly where
the other one is true of the negated operands. Moreover `finally` is an `until` whose left operand
is true, and `globally` a `release` whose left operand is false, so that `until` and negation
express all temporal operators.

The laws hold of the scans themselves. On both sides of an equation the evaluator walks through
the same list of steps, so it does not matter where a window is cut, nor whether it reaches the
interval at all.

Duality extends to formulas as a whole: a formula takes the opposite value if its operators are
replaced by their duals, from the root down.

## Main definitions

* `Formula.dual`: the dual of a formula.

## Main results

* `Formula.eval_release`, `Formula.eval_globally`, `Formula.eval_finally`: the temporal operators
  in terms of `until`.
* `Formula.eval_dual`: a formula and its dual have opposite values.
* `Formula.evaluateWindow_duals`: the laws of duality on windows of a trace.
-/

namespace MissionTime.Formula

variable {σ : Type} [State σ]

/-! ### The temporal operators in terms of `until` -/

section Operators

variable (t : Trace σ) (stop start : Nat) (I : Interval) (l r x : Formula)

/-- `release` is false where `until` is true of the negated operands: the first failure of the
right operand is the first witness of its negation. -/
theorem eval_release :
    (binary .release l I r).eval t stop start =
      !(binary .until (neg l) I (neg r)).eval t stop start := by
  simp only [eval, Bool.not_and]
  congr 1
  cases (I.window start stop).find? fun i => !r.eval t stop i with
  | none => rfl
  | some failing => exact List.any_eq_not_all_not

/-- `globally` is false where `finally` is true of the negated operand. -/
theorem eval_globally :
    (unary .globally I x).eval t stop start = !(unary .finally I (neg x)).eval t stop start := by
  simp only [eval, Bool.not_and]
  rw [List.all_eq_not_any_not]

/-- `finally` is an `until` whose left operand is true: the first witness is a witness, and
before it there is nothing to check. -/
theorem eval_finally :
    (unary .finally I x).eval t stop start =
      (binary .until (const true) I x).eval t stop start := by
  simp only [eval, ← List.isSome_find?]
  cases (I.window start stop).find? fun i => x.eval t stop i with
  | none => rfl
  | some first =>
      have hall : ((I.window start first).all fun _ => true) = true :=
        List.all_eq_true.mpr fun _ _ => rfl
      simp only [hall, Option.isSome_some]

/-- `globally` is a `release` whose left operand is false: nothing can release. -/
theorem eval_globally_eq_release :
    (unary .globally I x).eval t stop start =
      (binary .release (const false) I x).eval t stop start := by
  have hleft : (binary .until (const true) I (neg x)).eval t stop start =
      (binary .until (neg (const false)) I (neg x)).eval t stop start :=
    eval_binary_congr (fun _ => rfl) (fun _ => rfl) .until I start
  rw [eval_globally, eval_finally, hleft, eval_release]

end Operators

/-! ### The dual of a formula -/

/-- The **dual** of a formula: its operators are replaced by their dual ones over the duals of
their operands. A negation is dropped, and `xor` and `equiv` change into each other over the same
operands. -/
def dual : Formula → Formula
  | const value => const (!value)
  | var id => neg (var id)
  | neg x => x
  | connective .and l r => connective .or l.dual r.dual
  | connective .xor l r => connective .equiv l r
  | connective .or l r => connective .and l.dual r.dual
  | connective .implies l r => connective .and l r.dual
  | connective .equiv l r => connective .xor l r
  | unary .finally I x => unary .globally I x.dual
  | unary .globally I x => unary .finally I x.dual
  | binary .until l I r => binary .release l.dual I r.dual
  | binary .release l I r => binary .until l.dual I r.dual

/-- **A formula and its dual have opposite values**, on every window. -/
theorem eval_dual (t : Trace σ) (stop : Nat) (f : Formula) (start : Nat) :
    f.dual.eval t stop start = !f.eval t stop start := by
  induction f generalizing start with
  | const value => rfl
  | var id => rfl
  | neg x ih => exact (Bool.not_not _).symm
  | connective op l r ihl ihr =>
      cases op with
      | and => simp only [dual, eval, ihl, ihr, Bool.not_and]
      | xor => simp only [dual, eval, bne, Bool.not_not]
      | or => simp only [dual, eval, ihl, ihr, Bool.not_or]
      | implies => simp only [dual, eval, ihr, Bool.not_or, Bool.not_not]
      | equiv => rfl
  | unary op I x ih =>
      have hneg (i : Nat) : (neg x.dual).eval t stop i = x.eval t stop i := by
        rw [eval, ih, Bool.not_not]
      cases op with
      | «finally» => rw [dual, eval_globally, eval_unary_congr hneg]
      | globally =>
          rw [dual, eval_globally, Bool.not_not]
          exact eval_unary_congr ih .finally I start
  | binary op l I r ihl ihr =>
      have hnegl (i : Nat) : (neg l.dual).eval t stop i = l.eval t stop i := by
        rw [eval, ihl, Bool.not_not]
      have hnegr (i : Nat) : (neg r.dual).eval t stop i = r.eval t stop i := by
        rw [eval, ihr, Bool.not_not]
      cases op with
      | «until» => rw [dual, eval_release, eval_binary_congr hnegl hnegr]
      | release =>
          rw [dual, eval_release, Bool.not_not]
          exact eval_binary_congr ihl ihr .until I start

/-! ### Windows of a trace -/

/-- **Dual and derived operators.** On every window of a trace, whatever its bounds, `release` is
the negation of `until` over negated operands and `globally` that of `finally`; `finally` is
`until` with a left operand that is true, and `globally` is `release` with one that is false. -/
theorem evaluateWindow_duals (l r x : Formula) (I : Interval) (t : Trace σ) (start stop : Nat) :
    ((binary .release l I r).evaluateWindow t start stop =
        !(binary .until (neg l) I (neg r)).evaluateWindow t start stop) ∧
      ((unary .globally I x).evaluateWindow t start stop =
        !(unary .finally I (neg x)).evaluateWindow t start stop) ∧
      ((unary .finally I x).evaluateWindow t start stop =
        (binary .until (const true) I x).evaluateWindow t start stop) ∧
      (unary .globally I x).evaluateWindow t start stop =
        (binary .release (const false) I x).evaluateWindow t start stop :=
  ⟨eval_release t _ _ I l r, eval_globally t _ _ I x, eval_finally t _ _ I x,
    eval_globally_eq_release t _ _ I x⟩

end MissionTime.Formula
