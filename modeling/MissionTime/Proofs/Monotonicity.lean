import MissionTime.Proofs.Mutation
import MissionTime.Proofs.Reach

/-!
# Monotonicity of the Future Reach

The future reach grows with the upper bounds in a formula and with the reach of its leaves, and
depends on nothing else. The rule for `until` and `release` takes the reach of the left operand
less one step if this is the greater of the two; written as a maximum, it grows with both reaches,
whichever of them is the greater before or after.

A formula in the place of a subformula is seen by the rest only through its reach. So what a
mutation of a node does to the reach of the node decides what it does to that of the whole
formula.

## Main definitions

* `Formula.BoundedBy`: formulas of one shape, with no upper bound greater than in the other.

## Main results

* `Formula.BoundedBy.futureReach_le`: the reach grows with the upper bounds.
* `Formula.futureReach_put_le`: the reach grows with that of a subformula.
* `Formula.futureReach_monotone`: how mutations change the reach.
-/

namespace MissionTime

open Formula

/-- Positions grow with both the step and the offset. -/
theorem stepAfter_le_stepAfter {step step' offset offset' : Nat} (hstep : step ≤ step')
    (hoffset : offset ≤ offset') : stepAfter step offset ≤ stepAfter step' offset' := by
  rw [stepAfter, stepAfter]
  omega

namespace Formula

variable {f g x y l r l' r' : Formula} {I J : Interval}

/-! ### One operator -/

theorem futureReach_connective_le (op : Connective) (hl : l.futureReach ≤ l'.futureReach)
    (hr : r.futureReach ≤ r'.futureReach) :
    (connective op l r).futureReach ≤ (connective op l' r').futureReach := by
  rw [futureReach, futureReach]
  omega

theorem futureReach_unary_le (op : UnaryTemporal) (hI : I.upper ≤ J.upper)
    (h : x.futureReach ≤ y.futureReach) :
    (unary op I x).futureReach ≤ (unary op J y).futureReach := by
  rw [futureReach, futureReach]
  exact stepAfter_le_stepAfter (UInt64.le_iff_toNat_le.mp hI) h

/-- The reach of a binary temporal operator grows with its parts, also where the operand with the
greater reach becomes the other one. -/
theorem futureReach_binary_le (op : BinaryTemporal) (hl : l.futureReach ≤ l'.futureReach)
    (hI : I.upper ≤ J.upper) (hr : r.futureReach ≤ r'.futureReach) :
    (binary op l I r).futureReach ≤ (binary op l' J r').futureReach := by
  have hmax : max (l.futureReach - 1) r.futureReach ≤ max (l'.futureReach - 1) r'.futureReach := by
    omega
  rw [futureReach_binary, futureReach_binary]
  exact stepAfter_le_stepAfter (UInt64.le_iff_toNat_le.mp hI) hmax

/-! ### Formulas of one shape -/

/-- A formula is **bounded by** another one of the same shape if none of its upper bounds is
greater than the one in the same place there. Lower bounds, values and numbers of variables may be
any, and where it has a constant the other one may have a variable. -/
inductive BoundedBy : Formula → Formula → Prop
  | const (a b : Bool) : BoundedBy (const a) (const b)
  | constVar (a : Bool) (i : UInt32) : BoundedBy (const a) (var i)
  | var (i j : UInt32) : BoundedBy (var i) (var j)
  | neg {x y : Formula} (h : BoundedBy x y) : BoundedBy (neg x) (neg y)
  | connective (op : Connective) {l r l' r' : Formula} (hl : BoundedBy l l')
      (hr : BoundedBy r r') : BoundedBy (connective op l r) (connective op l' r')
  | unary (op : UnaryTemporal) {I J : Interval} {x y : Formula} (hI : I.upper ≤ J.upper)
      (h : BoundedBy x y) : BoundedBy (unary op I x) (unary op J y)
  | binary (op : BinaryTemporal) {l r l' r' : Formula} {I J : Interval} (hl : BoundedBy l l')
      (hI : I.upper ≤ J.upper) (hr : BoundedBy r r') :
      BoundedBy (binary op l I r) (binary op l' J r')

theorem BoundedBy.refl (f : Formula) : f.BoundedBy f := by
  induction f with
  | const a => exact .const a a
  | var i => exact .var i i
  | neg x ih => exact .neg ih
  | connective op l r ihl ihr => exact .connective op ihl ihr
  | unary op I x ih => exact .unary op (UInt64.le_refl _) ih
  | binary op l I r ihl ihr => exact .binary op ihl (UInt64.le_refl _) ihr

/-- **The reach grows with the upper bounds.** -/
theorem BoundedBy.futureReach_le (h : f.BoundedBy g) : f.futureReach ≤ g.futureReach := by
  induction h with
  | const a b => exact Nat.le_refl 0
  | constVar a i => exact Nat.zero_le 1
  | var i j => exact Nat.le_refl 1
  | neg h ih => exact ih
  | connective op hl hr ihl ihr => exact futureReach_connective_le op ihl ihr
  | unary op hI h ih => exact futureReach_unary_le op hI ih
  | binary op hl hI hr ihl ihr => exact futureReach_binary_le op ihl hI ihr

/-- Other bounds of a node leave its shape. -/
theorem boundedBy_withBounds (h : f.bounds? = some I) (hJ : I.upper ≤ J.upper) :
    f.BoundedBy (f.withBounds J) := by
  cases f <;> cases h
  · exact .unary _ hJ (.refl _)
  · exact .binary _ (.refl _) hJ (.refl _)

theorem withBounds_boundedBy (h : f.bounds? = some I) (hJ : J.upper ≤ I.upper) :
    (f.withBounds J).BoundedBy f := by
  cases f <;> cases h
  · exact .unary _ hJ (.refl _)
  · exact .binary _ (.refl _) hJ (.refl _)

/-! ### Subformulas -/

/-- An operand of greater reach makes for a greater reach. -/
theorem futureReach_replace_le (slot : Slot) (f : Formula) (h : x.futureReach ≤ y.futureReach) :
    (f.replace slot x).formula.futureReach ≤ (f.replace slot y).formula.futureReach := by
  have hrefl (z : Formula) : z.futureReach ≤ z.futureReach := Nat.le_refl _
  cases slot <;> cases f <;> try exact hrefl _
  case operand.neg => exact h
  case operand.unary op I z => exact futureReach_unary_le op (UInt64.le_refl _) h
  case left.connective op l r => exact futureReach_connective_le op h (hrefl r)
  case left.binary op l I r => exact futureReach_binary_le op h (UInt64.le_refl _) (hrefl r)
  case right.connective op l r => exact futureReach_connective_le op (hrefl l) h
  case right.binary op l I r => exact futureReach_binary_le op (hrefl l) (UInt64.le_refl _) h

/-- **The reach grows with that of a subformula.** Induction on the path. -/
theorem futureReach_put_le (path : List Slot) (f : Formula) (h : x.futureReach ≤ y.futureReach) :
    (f.put path x).futureReach ≤ (f.put path y).futureReach := by
  induction path generalizing f with
  | nil => exact h
  | cons slot path ih =>
      cases hchild : f.child? slot with
      | none => simp only [put, hchild, Nat.le_refl]
      | some z =>
          rw [put_cons hchild, put_cons hchild]
          exact futureReach_replace_le slot f (ih z)

end Formula

/-! ### Mutations -/

namespace Mutation

variable {m : Mutation Formula} {node : Formula}

/-- A mutation leaves the reach of a node if it sets the payload of a leaf or a lower bound. -/
def LeavesReach : Mutation Formula → Prop
  | value _ | id _ | bounds (.lower _) => True
  | _ => False

/-- A mutation does not lessen the reach of a node if the upper bound that it asks for is not
below the one there, and if the operand that it offers reaches at least as far as the one there. -/
def RaisesReach (node : Formula) : Mutation Formula → Prop
  | bounds edit => ∀ I, node.bounds? = some I → I.upper ≤ (I.proposed edit).2
  | operand slot y => ∀ x, node.child? slot = some x → x.futureReach ≤ y.futureReach
  | _ => False

theorem futureReach_run_eq (h : m.LeavesReach) (node : Formula) :
    (m.run node).formula.futureReach = node.futureReach := by
  have hyields := m.yields_run node
  generalize m.run node = after at hyields
  cases hyields with
  | value b previous => rfl
  | id n previous => rfl
  | @bounds edit node I J hI hJ =>
      cases edit with
      | lower bound =>
          have hupper : J.upper = I.upper := congrArg Prod.snd hJ
          have hle := (boundedBy_withBounds hI (UInt64.le_of_eq hupper.symm)).futureReach_le
          have hge := (withBounds_boundedBy hI (UInt64.le_of_eq hupper)).futureReach_le
          exact Nat.le_antisymm hge hle
      | _ => cases h
  | operand | noOperand => cases h
  | _ => rfl

theorem futureReach_le_run (h : m.RaisesReach node) :
    node.futureReach ≤ (m.run node).formula.futureReach := by
  have hyields := m.yields_run node
  generalize m.run node = after at hyields
  cases hyields with
  | @bounds edit node I J hI hJ =>
      have hupper : J.upper = (I.proposed edit).2 := congrArg Prod.snd hJ
      exact (boundedBy_withBounds hI (hupper ▸ h I hI)).futureReach_le
  | @operand slot y node x hx =>
      have hle := futureReach_replace_le slot node (h x hx)
      rwa [replace_child hx] at hle
  | value | id => cases h
  | _ => exact Nat.le_refl _

end Mutation

/-- **The future reach is monotone.** It is at most that of a formula of the same shape whose upper
bounds are at least as great. Wherever in a formula the payload of a leaf or a lower bound is set,
the reach stays; wherever an upper bound is raised, or an operand is replaced by one that reaches
at least as far, it does not become less. -/
theorem Formula.futureReach_monotone :
    (∀ f g : Formula, f.BoundedBy g → f.futureReach ≤ g.futureReach) ∧
      ∀ (f : Formula) (path : List Slot) (node : Formula), f.at? path = some node →
        ∀ m : Mutation Formula, ∃ after, m.runAt path f = some after ∧
          (m.LeavesReach → after.formula.futureReach = f.futureReach) ∧
          (m.RaisesReach node → f.futureReach ≤ after.formula.futureReach) := by
  refine ⟨fun f g h => h.futureReach_le, fun f path node hnode m => ?_⟩
  refine ⟨_, m.runAt_eq_put hnode, fun h => ?_, fun h => ?_⟩
  · have heq := Mutation.futureReach_run_eq h node
    have hle := futureReach_put_le path f (Nat.le_of_eq heq)
    have hge := futureReach_put_le path f (Nat.le_of_eq heq.symm)
    rw [put_at? hnode] at hle hge
    exact Nat.le_antisymm hle hge
  · have hle := futureReach_put_le path f (Mutation.futureReach_le_run h)
    rwa [put_at? hnode] at hle

/-- A left operand that comes to reach further than the right one, in a formula of the same shape
and by a mutation. -/
theorem Formula.futureReach_monotone_until :
    let left : Formula := unary .finally (.point 0) (const true)
    let f : Formula := binary .until left (.point 2) (var 0)
    let g : Formula := binary .until (unary .finally (.point 9) (var 1)) (.point 2) (var 5)
    let m : Mutation Formula := .bounds (.upper 9)
    f.BoundedBy g ∧ f.futureReach ≤ g.futureReach ∧ f.at? [.left] = some left ∧
      m.RaisesReach left ∧ ∃ after, m.runAt [.left] f = some after ∧
        f.futureReach ≤ after.formula.futureReach := by
  intro left f g m
  have hbounded : f.BoundedBy g :=
    .binary .until (.unary .finally (by decide) (.constVar true 1)) (by decide) (.var 0 5)
  have hraises : m.RaisesReach left := by
    intro I hI
    cases hI
    decide
  obtain ⟨hshape, hmutation⟩ := futureReach_monotone
  obtain ⟨after, hrun, -, hle⟩ := hmutation f [.left] left rfl m
  exact ⟨hbounded, hshape f g hbounded, rfl, hraises, after, hrun, hle hraises⟩

end MissionTime
