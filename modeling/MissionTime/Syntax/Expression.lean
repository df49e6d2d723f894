import MissionTime.Formula
import MissionTime.Syntax.Reading

/-!
# Expressions

The grammar of formulas over tokens. Infix operators have levels, and an operator of a smaller
level binds tighter:

```
expression 0     :=  unary
expression (n+1) :=  expression n (infix of level n+1, expression n)*
unary            :=  "~" unary  |  ("F" | "G") interval unary
                  |  "true"  |  "false"  |  variable  |  "(" expression 6 ")"
infix            :=  "U" interval  |  "R" interval          (level 1)
                  |  "&"  |  "^"  |  "|"  |  "->"  |  "<->"   (levels 2 to 6)
interval         :=  "[" number "," number "]"
```

The operators of one level group to the left. Each `unary` stands one level of nesting below
the `unary` around it, while the operands in a chain of infix operators stand side by side.

## Main definitions

* `InfixOperator` — an infix operator with the interval it carries, if it is temporal;
* `expression`, `chain`, `unary` — the readings of the grammar;
* `formula` — a whole token sequence read as a formula.
-/

namespace MissionTime.Syntax

open Text

/-! ### Infix operators -/

/-- An infix operator as it stands between its operands. -/
inductive InfixOperator where
  | connective (op : Connective)
  | temporal (op : BinaryTemporal) (bounds : Interval)
  deriving DecidableEq

/-- The level of the binary temporal operators, which bind tightest. -/
def temporalLevel : Nat := 1

/-- The levels of the connectives. -/
def connectiveLevel : Connective → Nat
  | .and => 2
  | .xor => 3
  | .or => 4
  | .implies => 5
  | .equiv => 6

/-- The level of the operators that bind loosest, at which a formula is read. -/
def loosestLevel : Nat := 6

/-- The formula that an infix operator makes of its operands. -/
def InfixOperator.apply : InfixOperator → Formula → Formula → Formula
  | .connective op, l, r => .connective op l r
  | .temporal op I, l, r => .binary op l I r

/-! ### Intervals and variables -/

/-- Reads the bound of an interval. -/
def bound (what : Expectation) (s : List Token) : Reading (Read UInt64 s.length) :=
  match s with
  | .number n :: rest =>
    if h : n.value < UInt64.size then pure (.ofHead (.ofNatLT n.value h))
    else throw ⟨.number n :: rest, .integerTooLarge n⟩
  | s => throw ⟨s, .expected what⟩

/-- Reads an interval. Bounds out of order are blamed on the interval as a whole. -/
def interval (s : List Token) : Reading (Read Interval s.length) := do
  let opening ← expect .openBracket .openBracket s
  let lower ← bound .lowerBound opening.rest
  let comma ← expect .comma .comma lower.rest
  let upper ← bound .upperBound comma.rest
  let closing ← expect .closeBracket .closeBracket upper.rest
  match Interval.of lower.value upper.value with
  | .ok I => pure ⟨I, closing.rest, by
      have := opening.length_lt
      have := lower.length_lt
      have := comma.length_lt
      have := upper.length_lt
      have := closing.length_lt
      omega⟩
  | .error e => throw ⟨s, .bounds e⟩

/-- Reads the infix operator that stands next if it has the given level. -/
def infixOfLevel (level : Nat) (s : List Token) :
    Reading (Option (Read InfixOperator s.length)) :=
  match s with
  | .connective op :: _ =>
    if connectiveLevel op = level then pure (some (.ofHead (.connective op)))
    else pure none
  | .binary op :: rest =>
    if temporalLevel = level then do
      let I ← interval rest
      pure (some ⟨.temporal op I.value, I.rest, Nat.lt_succ_of_lt I.length_lt⟩)
    else pure none
  | _ => pure none

/-! ### Expressions -/

mutual

/-- Reads a unary expression; `what` is what is needed where none begins. -/
def unary (what : Expectation) (s : List Token) : Reading (Read Formula s.length) :=
  nested s <|
    match s with
    | .constant value :: _ => pure (.ofHead (.const value))
    | .variable id :: rest =>
      if h : id.value < UInt32.size then pure (.ofHead (.var (.ofNatLT id.value h)))
      else throw ⟨.variable id :: rest, .variableTooLarge id⟩
    | .negation :: rest => do
      let x ← unary .operand rest
      pure ⟨.neg x.value, x.rest, Nat.lt_succ_of_lt x.length_lt⟩
    | .unary op :: rest => do
      let I ← interval rest
      let x ← unary .operand I.rest
      pure ⟨.unary op I.value x.value, x.rest, by
        have := I.length_lt
        have := x.length_lt
        simp only [List.length_cons]
        omega⟩
    | .openParen :: rest => do
      let inner ← expression loosestLevel .formula rest
      let closing ← expect .closeParen .closeParen inner.rest
      pure ⟨inner.value, closing.rest, by
        have := inner.length_lt
        have := closing.length_lt
        simp only [List.length_cons]
        omega⟩
    | s => throw ⟨s, .expected what⟩
termination_by 8 * s.length
decreasing_by
  · simp
  · have := I.length_lt
    simp only [List.length_cons]
    omega
  · simp only [loosestLevel, List.length_cons]
    omega

/-- Reads an expression with infix operators up to the given level. -/
def expression (level : Nat) (what : Expectation) (s : List Token) :
    Reading (Read Formula s.length) :=
  match level with
  | 0 => unary what s
  | n + 1 => do
    let first ← expression n what s
    let whole ← chain n first.value first.rest
    pure (whole.widen first.length_lt)
termination_by 8 * s.length + level + 1
decreasing_by
  · omega
  · omega
  · have := first.length_lt
    omega

/-- Reads on after a left operand: as long as an operator one level above `n` follows, it and
its right operand, an expression of level `n`, are joined to what stands on the left. -/
def chain (n : Nat) (left : Formula) (s : List Token) :
    Reading (Read Formula (s.length + 1)) := do
  match ← infixOfLevel (n + 1) s with
  | none => pure ⟨left, s, Nat.lt_succ_self _⟩
  | some op =>
    let right ← expression n .operand op.rest
    let whole ← chain n (op.value.apply left right.value) right.rest
    pure (whole.widen (by have := op.length_lt; have := right.length_lt; omega))
termination_by 8 * s.length + n
decreasing_by
  · have := op.length_lt
    omega
  · have := op.length_lt
    have := right.length_lt
    omega

end

/-- Reads a whole token sequence as a formula. -/
def formula (s : List Token) : Reading Formula := do
  let f ← expression loosestLevel .formula s
  match f.rest with
  | [] => pure f.value
  | rest => throw ⟨rest, .trailing⟩

end MissionTime.Syntax
