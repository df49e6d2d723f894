/-!
# Operators and Kinds of Formulas

The connectives, the temporal operators, and the kinds under which the nodes of a formula are
counted and compared. The order of a type is the order in which its members are listed.

## Main definitions

* `Connective`, `UnaryTemporal`, `BinaryTemporal` — the operators with operands of their own;
* `Kind` — the twelve kinds of nodes, with their arity, symbol and classification.
-/

namespace MissionTime

/-! ### Operators -/

/-- The binary operators of propositional logic. -/
inductive Connective where
  | and
  | xor
  | or
  | implies
  | equiv
  deriving DecidableEq, Ord

/-- The symbol of a connective. -/
def Connective.symbol : Connective → String
  | .and => "&"
  | .xor => "^"
  | .or => "|"
  | .implies => "->"
  | .equiv => "<->"

/-- The temporal operators with one operand: at some step, and at every step. -/
inductive UnaryTemporal where
  | finally
  | globally
  deriving DecidableEq, Ord

/-- The symbol of a unary temporal operator. -/
def UnaryTemporal.symbol : UnaryTemporal → String
  | .finally => "F"
  | .globally => "G"

/-- The temporal operators with two operands. -/
inductive BinaryTemporal where
  | until
  | release
  deriving DecidableEq, Ord

/-- The symbol of a binary temporal operator. -/
def BinaryTemporal.symbol : BinaryTemporal → String
  | .until => "U"
  | .release => "R"

/-- The symbol of negation. -/
def negationSymbol : String := "~"

/-! ### Kinds -/

/-- The kind of a node of a formula. -/
inductive Kind where
  | constant
  | variable
  | negation
  | and
  | xor
  | or
  | implies
  | equiv
  | finally
  | globally
  | until
  | release
  deriving DecidableEq, Ord

/-- The kind of the formulas that a connective builds. -/
def Connective.kind : Connective → Kind
  | .and => .and
  | .xor => .xor
  | .or => .or
  | .implies => .implies
  | .equiv => .equiv

/-- The kind of the formulas that a unary temporal operator builds. -/
def UnaryTemporal.kind : UnaryTemporal → Kind
  | .finally => .finally
  | .globally => .globally

/-- The kind of the formulas that a binary temporal operator builds. -/
def BinaryTemporal.kind : BinaryTemporal → Kind
  | .until => .until
  | .release => .release

namespace Kind

/-- All kinds, in order. -/
def all : List Kind :=
  [.constant, .variable, .negation, .and, .xor, .or, .implies, .equiv,
    .finally, .globally, .until, .release]

/-- The name of a kind. -/
def name : Kind → String
  | .constant => "Constant"
  | .variable => "Variable"
  | .negation => "Negation"
  | .and => "And"
  | .xor => "Xor"
  | .or => "Or"
  | .implies => "Implies"
  | .equiv => "Equiv"
  | .finally => "Finally"
  | .globally => "Globally"
  | .until => "Until"
  | .release => "Release"

/-- The connective that builds the formulas of a kind, if it is one of the connectives'. -/
def connective? : Kind → Option Connective
  | .and => some .and
  | .xor => some .xor
  | .or => some .or
  | .implies => some .implies
  | .equiv => some .equiv
  | _ => none

/-- The symbol of the operator of a kind; leaves have none. -/
def symbol? : Kind → Option String
  | .constant | .variable => none
  | .negation => some negationSymbol
  | .and => some Connective.and.symbol
  | .xor => some Connective.xor.symbol
  | .or => some Connective.or.symbol
  | .implies => some Connective.implies.symbol
  | .equiv => some Connective.equiv.symbol
  | .finally => some UnaryTemporal.finally.symbol
  | .globally => some UnaryTemporal.globally.symbol
  | .until => some BinaryTemporal.until.symbol
  | .release => some BinaryTemporal.release.symbol

/-- The number of operands of a kind. -/
def arity : Kind → Nat
  | .constant | .variable => 0
  | .negation | .finally | .globally => 1
  | .and | .xor | .or | .implies | .equiv | .until | .release => 2

/-- Negation and the unary temporal operators take one operand. -/
def isUnary (k : Kind) : Bool := k.arity == 1

/-- The connectives and the binary temporal operators take two operands. -/
def isBinary (k : Kind) : Bool := k.arity == 2

/-- The propositional operators are negation and the connectives; leaves are no operators. -/
def isPropositional : Kind → Bool
  | .negation | .and | .xor | .or | .implies | .equiv => true
  | _ => false

/-- The temporal operators are those that carry an interval. -/
def isTemporal : Kind → Bool
  | .finally | .globally | .until | .release => true
  | _ => false

end Kind

end MissionTime
