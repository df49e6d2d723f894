import Mathlib.Data.List.Basic
import MissionTime.Formula.Edit

/-!
# Operands and Their Exchange

A node has an operand in some of the slots. The operand in a slot can be exchanged for another
formula; everything else about the node stays. A path of slots leads from a formula down to one
of its subformulas.

## Main definitions

* `Formula.child?`: the operand in a slot.
* `Formula.at?`, `Formula.put`: the subformula at the end of a path, and a formula with another one
  in its place.

## Main results

* `Formula.replace_of_child?_eq_some`, `Formula.replace_of_child?_eq_none`: when an exchange is
  accepted, and what is handed back.
* `Formula.replace_child`, `Formula.child?_replace`: an exchange writes to its slot.
* `Formula.kind_replace`, `Formula.bounds?_replace`, `Formula.child?_replace_of_ne`: what an exchange
  does not touch.
* `Formula.replace_undone`: an exchange is undone by another one.
* `Formula.put_at?`, `Formula.at?_put`: what is put at the end of a path is there.
* `Formula.preorder_replace_perm`: the nodes of both formulas are kept by an exchange.
-/

namespace MissionTime

namespace Formula

/-- The operand in a slot. -/
def child? (f : Formula) : Slot → Option Formula
  | .operand => f.operand?
  | .left => f.left?
  | .right => f.right?

/-- The subformula at the end of a path of slots. -/
def at? : List Slot → Formula → Option Formula
  | [], f => some f
  | slot :: path, f => (f.child? slot).bind (at? path)

variable {f g x : Formula} {slot : Slot}

/-! ### The exchange of an operand -/

/-- An exchange is accepted if there is an operand in the slot, and this operand is handed
back. -/
theorem replace_of_child?_eq_some (h : f.child? slot = some x) (g : Formula) :
    f.replace slot g = ⟨true, (f.replace slot g).formula, x⟩ := by
  cases slot <;> cases f <;> cases h <;> rfl

theorem returned_replace (h : f.child? slot = some x) (g : Formula) :
    (f.replace slot g).returned = x := by
  rw [replace_of_child?_eq_some h]

/-- Without an operand in the slot the formula stays, and the offer is handed back. -/
theorem replace_of_child?_eq_none (h : f.child? slot = none) (g : Formula) :
    f.replace slot g = ⟨false, f, g⟩ := by
  cases slot <;> cases f <;> simp_all [child?, operand?, left?, right?, replace]

/-- An operand exchanged for itself changes nothing. -/
theorem replace_child (h : f.child? slot = some x) : (f.replace slot x).formula = f := by
  cases slot <;> cases f <;> cases h <;> rfl

/-- After an exchange the offer is in the slot. -/
theorem child?_replace (h : f.child? slot = some x) (g : Formula) :
    (f.replace slot g).formula.child? slot = some g := by
  cases slot <;> cases f <;> cases h <;> rfl

theorem kind_replace (slot : Slot) (f g : Formula) : (f.replace slot g).formula.kind = f.kind := by
  cases slot <;> cases f <;> rfl

theorem bounds?_replace (slot : Slot) (f g : Formula) :
    (f.replace slot g).formula.bounds? = f.bounds? := by
  cases slot <;> cases f <;> rfl

/-- An exchange is accepted if there is an operand in the slot. -/
theorem accepted_replace (slot : Slot) (f g : Formula) :
    (f.replace slot g).accepted = (f.child? slot).isSome := by
  cases slot <;> cases f <;> rfl

/-- What an accepted exchange hands back was in the slot. -/
theorem child?_of_accepted (h : (f.replace slot g).accepted = true) :
    f.child? slot = some (f.replace slot g).returned := by
  cases slot <;> cases f <;> first | rfl | cases h

/-- Of two exchanges in a slot the second one counts. -/
theorem replace_replace (slot : Slot) (f g x : Formula) :
    ((f.replace slot g).formula.replace slot x).formula = (f.replace slot x).formula := by
  cases slot <;> cases f <;> rfl

/-- An exchange leaves the other slots alone. -/
theorem child?_replace_of_ne {other : Slot} (h : other ≠ slot) (f g : Formula) :
    (f.replace slot g).formula.child? other = f.child? other := by
  cases slot <;> cases other <;> first | exact absurd rfl h | (cases f <;> rfl)

/-- An exchange is undone by the exchange of what it has handed back. -/
theorem replace_undone (h : f.child? slot = some x) (g : Formula) :
    (f.replace slot g).formula.replace slot x = ⟨true, f, g⟩ := by
  rw [replace_of_child?_eq_some (child?_replace h g), replace_replace, replace_child h]

/-! ### Subformulas -/

/-- A formula with another one in the place of the subformula at the end of a path. -/
def put : List Slot → Formula → Formula → Formula
  | [], _, y => y
  | slot :: path, f, y =>
    match f.child? slot with
    | some x => (f.replace slot (x.put path y)).formula
    | none => f

theorem put_cons {slot : Slot} (h : f.child? slot = some x) (path : List Slot) (y : Formula) :
    f.put (slot :: path) y = (f.replace slot (x.put path y)).formula := by
  rw [put, h]

/-- A subformula in its own place changes nothing. -/
theorem put_at? {path : List Slot} (h : f.at? path = some x) : f.put path x = f := by
  induction path generalizing f with
  | nil =>
      cases h
      rfl
  | cons slot path ih =>
      obtain ⟨child, hchild, h⟩ := Option.bind_eq_some_iff.mp h
      rw [put_cons hchild, ih h, replace_child hchild]

/-- A formula that is put at the end of a path is there. -/
theorem at?_put {path : List Slot} (h : f.at? path = some x) (y : Formula) :
    (f.put path y).at? path = some y := by
  induction path generalizing f with
  | nil => rfl
  | cons slot path ih =>
      obtain ⟨child, hchild, h⟩ := Option.bind_eq_some_iff.mp h
      rw [put_cons hchild, at?, child?_replace hchild]
      exact ih h

/-! ### The nodes of an exchange -/

/-- The nodes of an operand are nodes of the formula. -/
theorem preorder_subset_of_child? (h : f.child? slot = some x) : x.preorder ⊆ f.preorder := by
  cases slot <;> cases f <;> cases h <;> simp [preorder]

/-- The nodes of a formula that stand beside the operand in a slot. -/
def beside (f : Formula) : Slot → List Formula
  | .operand => []
  | .left => f.right?.elim [] preorder
  | .right => f.left?.elim [] preorder

theorem beside_replace (slot : Slot) (f g : Formula) :
    (f.replace slot g).formula.beside slot = f.beside slot := by
  cases slot <;> cases f <;> rfl

/-- The nodes of a formula are itself, those of one operand, and those that stand beside it. -/
theorem preorder_perm_of_child? (h : f.child? slot = some x) :
    f.preorder.Perm (f :: (x.preorder ++ f.beside slot)) := by
  cases slot with
  | operand => cases f <;> cases h <;> exact .of_eq (by simp [preorder, beside])
  | left => cases f <;> cases h <;> exact .of_eq rfl
  | right => cases f <;> cases h <;> exact List.perm_append_comm.cons _

/-- **An exchange keeps the nodes.** What is seen of a node without looking at its operands is
seen as often in the formula and the one handed back as before in the formula and the offer. -/
theorem preorder_replace_perm {β : Type} (label : Formula → β)
    (hlabel : ∀ slot f g, label (f.replace slot g).formula = label f) (slot : Slot)
    (f g : Formula) :
    (((f.replace slot g).formula.preorder ++ (f.replace slot g).returned.preorder).map label).Perm
      ((f.preorder ++ g.preorder).map label) := by
  cases h : f.child? slot with
  | none => rw [replace_of_child?_eq_none h]
  | some x =>
      have hafter := preorder_perm_of_child? (child?_replace h g)
      have hbefore := preorder_perm_of_child? h
      rw [beside_replace] at hafter
      rw [returned_replace h]
      -- The two operands change places around the nodes that stand beside them.
      have hswap : (g.preorder ++ f.beside slot ++ x.preorder).Perm
          (x.preorder ++ f.beside slot ++ g.preorder) := by
        rw [List.append_assoc x.preorder]
        exact List.perm_append_comm.trans (List.perm_append_comm.append_left _)
      have hrest : (((f.replace slot g).formula :: (g.preorder ++ f.beside slot ++ x.preorder)).map
          label).Perm ((f :: (x.preorder ++ f.beside slot ++ g.preorder)).map label) := by
        rw [List.map_cons, hlabel, List.map_cons]
        exact (hswap.map label).cons _
      exact ((hafter.append_right x.preorder).map label).trans
        (hrest.trans ((hbefore.append_right g.preorder).map label).symm)

end Formula

end MissionTime
