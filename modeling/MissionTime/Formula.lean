import MissionTime.Interval
import MissionTime.Operator

/-!
# Formulas of Mission-Time Linear Temporal Logic

A formula is a constant, a variable named by a number, or an operator over formulas. The
temporal operators carry a closed interval of step offsets.

## Main definitions

* `Formula` — the formulas;
* `Formula.kind` — the kind of the outermost node;
* `Formula.operand?`, `Formula.left?`, `Formula.right?`, `Formula.bounds?` — its parts;
* `Formula.preorder` — the formula and all its subformulas, outermost first.
-/

namespace MissionTime

/-- A formula of mission-time linear temporal logic. -/
inductive Formula where
  /-- Truth or falsehood. -/
  | const (value : Bool)
  /-- The variable with the given number. -/
  | var (id : UInt32)
  | neg (operand : Formula)
  | connective (op : Connective) (left right : Formula)
  | unary (op : UnaryTemporal) (bounds : Interval) (operand : Formula)
  | binary (op : BinaryTemporal) (left : Formula) (bounds : Interval) (right : Formula)
  deriving DecidableEq

namespace Formula

/-! ### Ways to write formulas -/

/-- A truth value is a formula. -/
instance : Coe Bool Formula := ⟨.const⟩

/-- The complement of a formula is its negation. -/
instance : Complement Formula := ⟨.neg⟩

/-- The conjunction of formulas. -/
instance : AndOp Formula := ⟨.connective .and⟩

/-- The disjunction of formulas. -/
instance : OrOp Formula := ⟨.connective .or⟩

/-- The exclusive disjunction of formulas. -/
instance : XorOp Formula := ⟨.connective .xor⟩

/-- The formula of a given kind over two operands. Only the connectives need nothing more than
operands, so of the other kinds there is none. -/
def ofKind? (k : Kind) (left right : Formula) : Option Formula :=
  k.connective?.map fun op => .connective op left right

/-! ### The outermost node -/

/-- The kind of the outermost node. -/
def kind : Formula → Kind
  | const _ => .constant
  | var _ => .variable
  | neg _ => .negation
  | connective op _ _ => op.kind
  | unary op _ _ => op.kind
  | binary op _ _ _ => op.kind

/-- The value of a constant. -/
def value? : Formula → Option Bool
  | const value => some value
  | _ => none

/-- The number of a variable. -/
def id? : Formula → Option UInt32
  | var id => some id
  | _ => none

/-- The operand of a unary operator. -/
def operand? : Formula → Option Formula
  | neg x | unary _ _ x => some x
  | _ => none

/-- The left operand of a binary operator. -/
def left? : Formula → Option Formula
  | connective _ l _ | binary _ l _ _ => some l
  | _ => none

/-- The right operand of a binary operator. -/
def right? : Formula → Option Formula
  | connective _ _ r | binary _ _ _ r => some r
  | _ => none

/-- The interval of a temporal operator. -/
def bounds? : Formula → Option Interval
  | unary _ I _ | binary _ _ I _ => some I
  | _ => none

/-! ### All nodes -/

/-- The formula and all its subformulas: a node comes before its operands, and a left operand
before a right one. -/
def preorder : Formula → List Formula
  | const b => [const b]
  | var i => [var i]
  | neg x => neg x :: x.preorder
  | connective op l r => connective op l r :: (l.preorder ++ r.preorder)
  | unary op I x => unary op I x :: x.preorder
  | binary op l I r => binary op l I r :: (l.preorder ++ r.preorder)

end Formula

end MissionTime
