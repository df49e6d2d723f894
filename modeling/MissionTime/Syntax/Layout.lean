import MissionTime.Formula
import MissionTime.Syntax.Token

/-!
# Formulas as Texts

A formula is laid out as a sequence of tokens and blanks, and the layout is spelled. There are
two layouts. The *canonical* one puts every operand in parentheses and has no blanks. The
*pretty* one has a blank on each side of a binary operator, and parentheses only around those
operands that would otherwise be taken apart or that are hard to read.

## Main definitions

* `Formula.tokens`, `Formula.canonical` — the canonical layout;
* `Formula.layout`, `Formula.pretty` — the pretty layout;
* `Interval.text` — an interval in brackets.
-/

namespace MissionTime

open Text Syntax

namespace Syntax

/-- A piece of a layout. -/
inductive Piece where
  | blank
  | token (token : Token)
  deriving DecidableEq

/-- The characters of a piece. -/
def Piece.spelling : Piece → List Char
  | .blank => [' ']
  | .token t => t.spelling

/-- The text of a layout. -/
def spell (pieces : List Piece) : List Char :=
  pieces.flatMap Piece.spelling

/-- The text of tokens that stand side by side. -/
def spellTokens (tokens : List Token) : List Char :=
  tokens.flatMap Token.spelling

/-- Tokens between parentheses. -/
def parenthesized (tokens : List Token) : List Token :=
  .openParen :: tokens ++ [.closeParen]

end Syntax

/-! ### Intervals -/

/-- The tokens of an interval. -/
def Interval.tokens (I : Interval) : List Token :=
  [.openBracket, .number (.ofNat I.lower.toNat), .comma, .number (.ofNat I.upper.toNat),
    .closeBracket]

/-- The text of an interval. -/
def Interval.text (I : Interval) : String :=
  String.ofList (spellTokens I.tokens)

namespace Formula

/-! ### The canonical layout -/

/-- The tokens of a formula in which every operand stands in parentheses. -/
def tokens : Formula → List Token
  | const value => [.constant value]
  | var id => [.variable (.ofNat id.toNat)]
  | neg x => .negation :: parenthesized x.tokens
  | connective op l r =>
    parenthesized l.tokens ++ .connective op :: parenthesized r.tokens
  | unary op I x => .unary op :: I.tokens ++ parenthesized x.tokens
  | binary op l I r =>
    parenthesized l.tokens ++ .binary op :: I.tokens ++ parenthesized r.tokens

/-- The canonical text of a formula. -/
def canonical (f : Formula) : String :=
  String.ofList (spellTokens f.tokens)

/-- The symbol of the outermost operator; a leaf stands for itself. -/
def symbol (f : Formula) : String :=
  f.kind.symbol?.getD f.canonical

/-! ### The pretty layout -/

/-- Whether an operand of a node of kind `k` stands in parentheses. Only binary operators do,
and a connective needs none around an operand of its own kind. -/
def needsParens (k : Kind) (operand : Formula) : Bool :=
  operand.kind.isBinary && !(k.isPropositional && operand.kind == k)

/-- A layout, between parentheses if they are needed. -/
def layoutOperand (parens : Bool) (pieces : List Piece) : List Piece :=
  if parens then .token .openParen :: pieces ++ [.token .closeParen] else pieces

/-- The pretty layout of a formula. -/
def layout : Formula → List Piece
  | const value => [.token (.constant value)]
  | var id => [.token (.variable (.ofNat id.toNat))]
  | neg x => .token .negation :: layoutOperand (needsParens .negation x) x.layout
  | connective op l r =>
    layoutOperand (needsParens op.kind l) l.layout
      ++ [.blank, .token (.connective op), .blank]
      ++ layoutOperand (needsParens op.kind r) r.layout
  | unary op I x =>
    .token (.unary op) :: I.tokens.map .token
      ++ layoutOperand (needsParens op.kind x) x.layout
  | binary op l I r =>
    layoutOperand (needsParens op.kind l) l.layout
      ++ .blank :: .token (.binary op) :: I.tokens.map .token
      ++ .blank :: layoutOperand (needsParens op.kind r) r.layout

/-- The pretty text of a formula. -/
def pretty (f : Formula) : String :=
  String.ofList (spell f.layout)

end Formula

end MissionTime
