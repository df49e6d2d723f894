import MissionTime.Formula

/-!
# Editing the Outermost Node

A formula is edited by changing the payload of its outermost node or by putting another formula
in the place of one of its operands. Each edit hands back the formula as it is afterwards, together
with its answer: what was there before, or that the node has no place for the edit.

## Main definitions

* `Formula.setValue`, `Formula.setId`, `Formula.editBounds` — the payload replaced;
* `Formula.replace` — an operand replaced.
-/

namespace MissionTime

/-- The places of operands. -/
inductive Slot where
  | operand
  | left
  | right
  deriving DecidableEq

/-- The outcome of offering a formula for a slot of another: the other formula afterwards, and
what is handed back, namely the operand that was replaced, or the offer itself if it was not
accepted. -/
structure Replacement where
  accepted : Bool
  formula : Formula
  returned : Formula
  deriving DecidableEq

namespace Formula

/-! ### Payloads -/

/-- Sets the value of a constant. -/
def setValue (value : Bool) : Formula → Edited Formula (Option Bool)
  | const previous => ⟨const value, some previous⟩
  | f => ⟨f, none⟩

/-- Sets the number of a variable. -/
def setId (id : UInt32) : Formula → Edited Formula (Option UInt32)
  | var previous => ⟨var id, some previous⟩
  | f => ⟨f, none⟩

/-- Edits the interval of a temporal operator, which keeps what the edit leaves behind. Nodes
without an interval have no answer. -/
def editBounds (e : Interval.BoundsEdit) :
    Formula → Edited Formula (Option (Except BoundsError Interval))
  | unary op I x =>
    let J := I.edit e
    ⟨unary op J.state x, some J.answer⟩
  | binary op l I r =>
    let J := I.edit e
    ⟨binary op l J.state r, some J.answer⟩
  | f => ⟨f, none⟩

/-! ### Operands -/

/-- Offers `g` for a slot of a formula. -/
def replace (slot : Slot) (f g : Formula) : Replacement :=
  match slot, f with
  | .operand, neg x => ⟨true, neg g, x⟩
  | .operand, unary op I x => ⟨true, unary op I g, x⟩
  | .left, connective op l r => ⟨true, connective op g r, l⟩
  | .left, binary op l I r => ⟨true, binary op g I r, l⟩
  | .right, connective op l r => ⟨true, connective op l g, r⟩
  | .right, binary op l I r => ⟨true, binary op l I g, r⟩
  | _, f => ⟨false, f, g⟩

end Formula

end MissionTime
