import Mathlib.Logic.Basic
import MissionTime.Formula.Order

/-!
# Comparison and Equality

The order of formulas compares kinds, payloads, operands and intervals. It finds two formulas
equal exactly if they are the same formula, because each of these comparisons does so, and
because together they leave no part of a formula out.

## Main results

* `lawfulEqOrd_of_rank`: a type that is compared by ranks.
* `Formula.compare_eq_eq_iff`: formulas that compare as equal.
-/

namespace MissionTime

/-- A type that is compared by the ranks of its members finds only a member and itself equal,
if a member can be told from its rank. -/
theorem lawfulEqOrd_of_rank {α : Type} [Ord α] {rank : α → Nat} {ofRank : Nat → α}
    (hrank : ∀ a, ofRank (rank a) = a)
    (hcompare : ∀ a b : α, compare a b = compare (rank a) (rank b)) : Std.LawfulEqOrd α where
  compare_self {a} := (hcompare a a).trans (Std.compare_eq_iff_eq.mpr rfl)
  eq_of_compare {a b} h := by
    have hab : rank a = rank b := Std.compare_eq_iff_eq.mp ((hcompare a b).symm.trans h)
    rw [← hrank a, hab, hrank b]

instance : Std.LawfulEqOrd Connective :=
  lawfulEqOrd_of_rank Connective.ofNat_ctorIdx fun _ _ => rfl

instance : Std.LawfulEqOrd UnaryTemporal :=
  lawfulEqOrd_of_rank UnaryTemporal.ofNat_ctorIdx fun _ _ => rfl

instance : Std.LawfulEqOrd BinaryTemporal :=
  lawfulEqOrd_of_rank BinaryTemporal.ofNat_ctorIdx fun _ _ => rfl

instance : Std.LawfulEqOrd Kind :=
  lawfulEqOrd_of_rank Kind.ofNat_ctorIdx fun _ _ => rfl

/-- Intervals are equal if their bounds are. -/
theorem Interval.ext_bounds {I J : Interval} (hlower : I.lower = J.lower)
    (hupper : I.upper = J.upper) : I = J := by
  cases I
  cases J
  cases hlower
  cases hupper
  rfl

/-- Intervals are compared by both their bounds. -/
theorem Interval.compare_eq_eq_iff (I J : Interval) : compare I J = .eq ↔ I = J := by
  have hbounds : compare I J = .eq ↔ I.lower = J.lower ∧ I.upper = J.upper := by
    rw [← Std.compare_eq_iff_eq (a := I.lower), ← Std.compare_eq_iff_eq (a := I.upper)]
    exact Ordering.then_eq_eq
  rw [hbounds]
  constructor
  · rintro ⟨hlower, hupper⟩
    exact Interval.ext_bounds hlower hupper
  · rintro rfl
    exact ⟨rfl, rfl⟩

namespace Formula

/-- A formula compares as equal to itself. -/
theorem compare_self (f : Formula) : f.compare f = .eq := by
  induction f with
  | const value => exact Std.compare_eq_iff_eq.mpr rfl
  | var id => exact Std.compare_eq_iff_eq.mpr rfl
  | neg x ih => exact ih
  | connective op l r ihl ihr =>
      simp only [compare, ihl, ihr, Std.compare_eq_iff_eq.mpr, Ordering.eq_then]
  | unary op I x ih =>
      simp only [compare, ih, Std.compare_eq_iff_eq.mpr, (I.compare_eq_eq_iff I).mpr,
        Ordering.eq_then]
  | binary op l I r ihl ihr =>
      simp only [compare, ihl, ihr, Std.compare_eq_iff_eq.mpr, (I.compare_eq_eq_iff I).mpr,
        Ordering.eq_then]

/-- The form of the root of a formula, by the number of operands and by whether the root is
temporal or a constant. -/
def form : Formula → Nat × Bool × Bool
  | const _ => (0, false, true)
  | var _ => (0, false, false)
  | neg _ => (1, false, false)
  | connective .. => (2, false, false)
  | unary .. => (1, true, false)
  | binary .. => (2, true, false)

theorem form_eq (f : Formula) :
    f.form = (f.kind.arity, f.kind.isTemporal, f.kind == .constant) := by
  cases f with
  | connective op l r => cases op <;> rfl
  | unary op I x => cases op <;> rfl
  | binary op l I r => cases op <;> rfl
  | _ => rfl

/-- The kind of a formula tells the form of its root. -/
theorem form_eq_of_kind_eq {f g : Formula} (h : f.kind = g.kind) : f.form = g.form := by
  rw [form_eq, h, form_eq]

/-- Nodes that are not both of one form have different kinds. -/
theorem kind_ne_of_unlike {f g : Formula} (hconst : ∀ a b, f = const a → g = const b → False)
    (hvar : ∀ i j, f = var i → g = var j → False) (hneg : ∀ x y, f = neg x → g = neg y → False)
    (hconnective : ∀ o l r o' l' r', f = connective o l r → g = connective o' l' r' → False)
    (hunary : ∀ o I x o' J y, f = unary o I x → g = unary o' J y → False)
    (hbinary : ∀ o l I r o' l' J r', f = binary o l I r → g = binary o' l' J r' → False) :
    f.kind ≠ g.kind := by
  intro hkind
  have hform := form_eq_of_kind_eq hkind
  cases f <;> cases g <;> cases hform
  · exact hconst _ _ rfl rfl
  · exact hvar _ _ rfl rfl
  · exact hneg _ _ rfl rfl
  · exact hconnective _ _ _ _ _ _ rfl rfl
  · exact hunary _ _ _ _ _ _ rfl rfl
  · exact hbinary _ _ _ _ _ _ _ _ rfl rfl

/-- Formulas that compare as equal are the same. Induction along the comparison: nodes that it
does not take apart have different kinds. -/
theorem eq_of_compare_eq {f g : Formula} (h : f.compare g = .eq) : f = g := by
  fun_induction Formula.compare f g with
  | case1 a b => exact congrArg const (Std.compare_eq_iff_eq.mp h)
  | case2 i j => exact congrArg var (Std.compare_eq_iff_eq.mp h)
  | case3 x y ih => exact congrArg neg (ih h)
  | case4 o l r o' l' r' ihl ihr =>
      obtain ⟨ho, h⟩ := Ordering.then_eq_eq.mp h
      obtain ⟨hl, hr⟩ := Ordering.then_eq_eq.mp h
      obtain rfl := Std.compare_eq_iff_eq.mp ho
      rw [ihl hl, ihr hr]
  | case5 o I x o' J y ih =>
      obtain ⟨ho, h⟩ := Ordering.then_eq_eq.mp h
      obtain ⟨hx, hI⟩ := Ordering.then_eq_eq.mp h
      obtain rfl := Std.compare_eq_iff_eq.mp ho
      obtain rfl := (I.compare_eq_eq_iff J).mp hI
      rw [ih hx]
  | case6 o l I r o' l' J r' ihl ihr =>
      obtain ⟨ho, h⟩ := Ordering.then_eq_eq.mp h
      obtain ⟨hl, h⟩ := Ordering.then_eq_eq.mp h
      obtain ⟨hr, hI⟩ := Ordering.then_eq_eq.mp h
      obtain rfl := Std.compare_eq_iff_eq.mp ho
      obtain rfl := (I.compare_eq_eq_iff J).mp hI
      rw [ihl hl, ihr hr]
  | case7 f g hconst hvar hneg hconnective hunary hbinary =>
      have hkind : f.kind = g.kind := Std.compare_eq_iff_eq.mp h
      exact absurd hkind (kind_ne_of_unlike hconst hvar hneg hconnective hunary hbinary)

/-- **Formulas compare as equal exactly if they are the same.** -/
theorem compare_eq_eq_iff (f g : Formula) : f.compare g = .eq ↔ f = g := by
  constructor
  · exact eq_of_compare_eq
  · rintro rfl
    exact f.compare_self

end Formula

end MissionTime
