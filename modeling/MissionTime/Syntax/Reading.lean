import MissionTime.Interval
import MissionTime.Syntax.Token

/-!
# Readings of Token Sequences

A reading takes tokens from the front of a sequence and either yields a value and the tokens
that are left or fails at some of the remaining tokens. It runs under a nesting gauge, which
counts the unary expressions that are being read.

## Main definitions

* `Failure` — the tokens at which a reading failed, and the cause;
* `Reading` — computations that may fail and that see the nesting gauge;
* `Read` — a value that was read, with the tokens left, which are fewer than a given number;
* `nested` — a reading one level further down;
* `expect` — the reading of one given token.
-/

namespace MissionTime.Syntax

open Text

/-! ### Failures -/

/-- What is needed next. -/
inductive Expectation where
  | formula
  | operand
  | closeParen
  | openBracket
  | lowerBound
  | comma
  | upperBound
  | closeBracket
  deriving DecidableEq

/-- The wording of an expectation. -/
def Expectation.text : Expectation → String
  | .formula => "formula"
  | .operand => "operand"
  | .closeParen => "')'"
  | .openBracket => "'['"
  | .lowerBound => "lower bound"
  | .comma => "','"
  | .upperBound => "upper bound"
  | .closeBracket => "']'"

/-- Why a token sequence cannot be read. -/
inductive Failure.Cause where
  /-- Something else stands where `what` is needed. -/
  | expected (what : Expectation)
  /-- The formula is complete before the end. -/
  | trailing
  /-- The number of a variable does not fit into 32 bits. -/
  | variableTooLarge (id : Numeral)
  /-- A bound does not fit into 64 bits. -/
  | integerTooLarge (value : Numeral)
  /-- The bounds of an interval are not in order. -/
  | bounds (error : BoundsError)
  /-- There are more levels of unary expressions than are allowed. -/
  | tooDeep
  deriving DecidableEq

/-- A failure: the tokens from the point where it was noticed, and its cause. -/
structure Failure where
  rest : List Token
  cause : Failure.Cause
  deriving DecidableEq

/-! ### Readings -/

/-- A reading under the nesting gauge. -/
abbrev Reading (α : Type) := ExceptT Failure (StateM Nat) α

/-- A value that was read, and the tokens left after it. They are fewer than `bound`. -/
structure Read (α : Type) (bound : Nat) where
  value : α
  rest : List Token
  length_lt : rest.length < bound

/-- The value of the first of some tokens, the others being left. -/
def Read.ofHead {α : Type} {token : Token} {rest : List Token} (value : α) :
    Read α (token :: rest).length :=
  ⟨value, rest, Nat.lt_succ_self _⟩

/-- The same value under a larger bound. -/
def Read.widen {α : Type} {m n : Nat} (r : Read α m) (h : m ≤ n) : Read α n :=
  ⟨r.value, r.rest, Nat.lt_of_lt_of_le r.length_lt h⟩

/-- The number of unary expressions that may be read one within the other. -/
def nestingLimit : Nat := 64

/-- Reads one level further down. The level is left again whether the reading succeeds or
fails; at the limit it is not entered at all. -/
def nested {α : Type} (s : List Token) (body : Reading α) : Reading α := do
  unless (← get) < nestingLimit do throw ⟨s, .tooDeep⟩
  modify (· + 1)
  try body finally modify (· - 1)

/-- Reads one given token. -/
def expect (token : Token) (what : Expectation) (s : List Token) :
    Reading (Read Unit s.length) :=
  match s with
  | t :: rest =>
    if t = token then pure (.ofHead ())
    else throw ⟨t :: rest, .expected what⟩
  | [] => throw ⟨[], .expected what⟩

end MissionTime.Syntax
