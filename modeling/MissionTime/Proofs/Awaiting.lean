import MissionTime.Proofs.Phrase

/-!
# Places in Phrases

A reading that has not come to its end stands behind the tokens that it has taken, at a place
where something is needed next. `Awaits` describes these places: the tokens before, in which
some expressions are complete and others are not, and what is needed. It is a derivation that
is cut off in the middle.

The tokens before a place begin a phrase, because all that is unfinished can be finished.

## Main definitions

* `Expectation.admits`: the tokens with which a reading goes on where something is needed.
* `AwaitsInterval`, `Awaits`: the places, and what is needed there.
* `Refuses`: the reasons to refuse what comes at a place.

## Main results

* `Awaits.exists_phrase`: the tokens before a place begin a phrase.
-/

namespace MissionTime.Syntax

open Text

/-! ### What is needed, and what comes -/

/-- The tokens that begin a unary expression. -/
def Token.beginsUnary : Token → Bool
  | .constant _ | .variable _ | .negation | .unary _ | .openParen => true
  | _ => false

/-- The numbers among the tokens. -/
def Token.isNumber : Token → Bool
  | .number _ => true
  | _ => false

/-- The tokens with which a reading goes on where something is needed. Where a parenthesis is to
be closed, the expression in it may also go on with an infix operator. -/
def Expectation.admits : Expectation → Token → Bool
  | .formula, t | .operand, t => t.beginsUnary
  | .closeParen, t => t == .closeParen || t.infixLevel?.isSome
  | .openBracket, t => t == .openBracket
  | .lowerBound, t | .upperBound, t => t.isNumber
  | .comma, t => t == .comma
  | .closeBracket, t => t == .closeBracket

/-- A unary expression is needed as a formula or as an operand. -/
def Expectation.NeedsUnary (what : Expectation) : Prop :=
  what = .formula ∨ what = .operand

theorem Expectation.NeedsUnary.admits_eq {what : Expectation} (h : what.NeedsUnary)
    (t : Token) : what.admits t = t.beginsUnary := by
  obtain rfl | rfl := h <;> rfl

/-- The places in an interval: the tokens before, and what is needed next. -/
inductive AwaitsInterval : List Token → Expectation → Prop
  | openBracket : AwaitsInterval [] .openBracket
  | lowerBound : AwaitsInterval [.openBracket] .lowerBound
  | comma {a : Numeral} (ha : a.value < UInt64.size) :
      AwaitsInterval [.openBracket, .number a] .comma
  | upperBound {a : Numeral} (ha : a.value < UInt64.size) :
      AwaitsInterval [.openBracket, .number a, .comma] .upperBound
  | closeBracket {a b : Numeral} (ha : a.value < UInt64.size) (hb : b.value < UInt64.size) :
      AwaitsInterval [.openBracket, .number a, .comma, .number b] .closeBracket

/-- **The places in an expression.** `Awaits what n k ts w` says that a reading of an expression
of level `n`, needed as `what`, can stand behind the tokens `ts`, and that `w` is needed there.
The level of nesting that it takes to get there is `k`. -/
inductive Awaits : Expectation → Nat → Nat → List Token → Expectation → Prop
  | start {what : Expectation} (hwhat : what.NeedsUnary) : Awaits what 0 1 [] what
  | negation {what w : Expectation} {k : Nat} {ts : List Token}
      (hx : Awaits .operand 0 k ts w) : Awaits what 0 (k + 1) (.negation :: ts) w
  | bounds {what w : Expectation} {op : UnaryTemporal} {is : List Token}
      (hI : AwaitsInterval is w) : Awaits what 0 1 (.unary op :: is) w
  | unary {what w : Expectation} {k : Nat} {op : UnaryTemporal} {is ts : List Token}
      {I : Interval} (hI : DerivesInterval is I) (hx : Awaits .operand 0 k ts w) :
      Awaits what 0 (k + 1) (.unary op :: (is ++ ts)) w
  | parens {what w : Expectation} {k : Nat} {ts : List Token}
      (hx : Awaits .formula 6 k ts w) : Awaits what 0 (k + 1) (.openParen :: ts) w
  | closing {what : Expectation} {k : Nat} {ts : List Token} {x : Formula}
      (hx : Derives 6 k ts x) : Awaits what 0 (k + 1) (.openParen :: ts) .closeParen
  | first {what w : Expectation} {n k : Nat} {ts : List Token} (hx : Awaits what n k ts w) :
      Awaits what (n + 1) k ts w
  | operatorBounds {what w : Expectation} {k : Nat} {ts is : List Token} {l : Formula}
      {op : BinaryTemporal} (hl : Derives 1 k ts l) (hI : AwaitsInterval is w) :
      Awaits what 1 k (ts ++ .binary op :: is) w
  | operand {what w : Expectation} {n k m : Nat} {ts os us : List Token} {l : Formula}
      {op : InfixOperator} (hl : Derives (n + 1) k ts l) (hop : DerivesInfix (n + 1) os op)
      (hr : Awaits .operand n m us w) : Awaits what (n + 1) (max k m) (ts ++ (os ++ us)) w

/-- **Reasons to refuse** what comes where something is needed: another token or the end, a
number that does not fit its word, or an interval with bounds out of order. -/
inductive Refuses : Expectation → List Token → Failure.Cause → Prop
  | expected {w : Expectation} {rest : List Token} (h : ∀ t ∈ rest.head?, w.admits t = false) :
      Refuses w rest (.expected w)
  | variableTooLarge {w : Expectation} {id : Numeral} {rest : List Token} (hw : w.NeedsUnary)
      (hid : ¬ id.value < UInt32.size) :
      Refuses w (.variable id :: rest) (.variableTooLarge id)
  | integerTooLarge {w : Expectation} {n : Numeral} {rest : List Token}
      (hw : w = .lowerBound ∨ w = .upperBound) (hn : ¬ n.value < UInt64.size) :
      Refuses w (.number n :: rest) (.integerTooLarge n)
  | bounds {a b : Numeral} {error : BoundsError} {rest : List Token}
      (ha : a.value = error.lower.toNat) (hb : b.value = error.upper.toNat)
      (hlt : ¬ error.lower ≤ error.upper) :
      Refuses .openBracket
        (.openBracket :: .number a :: .comma :: .number b :: .closeBracket :: rest)
        (.bounds error)

/-! ### The tokens before a place begin a phrase -/

theorem AwaitsInterval.exists_phrase {ts : List Token} {w : Expectation}
    (h : AwaitsInterval ts w) : ∃ us, IntervalPhrase (ts ++ us) := by
  have hzero : (Numeral.ofNat 0).value < UInt64.size := by decide
  cases h with
  | openBracket => exact ⟨_, .bounds hzero hzero⟩
  | lowerBound => exact ⟨_, .bounds hzero hzero⟩
  | comma ha => exact ⟨_, .bounds ha hzero⟩
  | upperBound ha => exact ⟨_, .bounds ha hzero⟩
  | closeBracket ha hb => exact ⟨_, .bounds ha hb⟩

/-- **The tokens before a place begin a phrase.** Each unfinished part is finished in turn. -/
theorem Awaits.exists_phrase {what w : Expectation} {n k : Nat} {ts : List Token}
    (h : Awaits what n k ts w) : ∃ us, Phrase n (ts ++ us) := by
  induction h with
  | start _ => exact ⟨_, .constant true⟩
  | negation _ ih =>
      obtain ⟨us, hus⟩ := ih
      exact ⟨us, .negation hus⟩
  | bounds hI =>
      obtain ⟨us, hus⟩ := hI.exists_phrase
      exact ⟨us ++ [.constant true], by simpa using Phrase.unary hus (.constant true)⟩
  | unary hI _ ih =>
      obtain ⟨us, hus⟩ := ih
      exact ⟨us, by simpa using Phrase.unary hI.phrase hus⟩
  | parens _ ih =>
      obtain ⟨us, hus⟩ := ih
      exact ⟨us ++ [.closeParen], by simpa using Phrase.parens hus⟩
  | closing hx => exact ⟨[.closeParen], .parens hx.phrase⟩
  | first _ ih =>
      obtain ⟨us, hus⟩ := ih
      exact ⟨us, .single hus⟩
  | operatorBounds hl hI =>
      obtain ⟨us, hus⟩ := hI.exists_phrase
      exact ⟨us ++ [.constant true],
        by simpa using Phrase.chain hl.phrase (.temporal hus) (.constant true)⟩
  | operand hl hop _ ih =>
      obtain ⟨us, hus⟩ := ih
      exact ⟨us, by simpa using Phrase.chain hl.phrase hop.phrase hus⟩

end MissionTime.Syntax
