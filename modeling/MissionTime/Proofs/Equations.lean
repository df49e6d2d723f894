import MissionTime.Proofs.Gauge

/-!
# The Equations of the Readings

Under a given gauge each reading of the grammar is a partial function from tokens to a value
and the tokens left. This module states the equations of these functions: what the readings
do, clause by clause, without the bounds that make their recursion end.

## Main definitions

* `result`: what a reading yields under a gauge, and the tokens left.

## Main results

* `result_interval`, `result_unary`, `result_expression_succ`, `result_chain`: the equations.
-/

namespace MissionTime.Syntax

open Text

variable {α β : Type}

/-- The value that was read, and the tokens left. -/
def Read.pair {bound : Nat} (r : Read α bound) : α × List Token :=
  (r.value, r.rest)

/-- What a reading yields under a gauge, and the tokens left; or its failure. -/
def result {bound : Nat} (m : Reading (Read α bound)) (gauge : Nat) :
    Except Failure (α × List Token) :=
  (outcome m gauge).map Read.pair

/-- A reading leaves fewer tokens than its bound says. -/
theorem length_lt_of_result {bound gauge : Nat} {m : Reading (Read α bound)} {value : α}
    {rest : List Token} (h : result m gauge = .ok (value, rest)) : rest.length < bound := by
  rw [result] at h
  cases hm : outcome m gauge with
  | error e =>
      rw [hm] at h
      cases h
  | ok r =>
      rw [hm] at h
      cases h
      exact r.length_lt

/-! ### Results of composed readings -/

/-- A computation that can fail succeeds if its parts do. -/
theorem bind_eq_ok_iff {ε : Type} {x : Except ε α} {f : α → Except ε β} {b : β} :
    x.bind f = .ok b ↔ ∃ a, x = .ok a ∧ f a = .ok b := by
  cases x with
  | error e => simp [Except.bind]
  | ok a => simp [Except.bind]

/-- Results compose as outcomes do, if the second reading depends on no more than the value
and the tokens that the first one yields. -/
theorem result_bind {a b : Nat} {m : Reading (Read α a)} (hm : Balanced m)
    {k : Read α a → Reading (Read β b)} {gauge : Nat}
    {f : α × List Token → Except Failure (β × List Token)}
    (hf : ∀ r, result (k r) gauge = f r.pair) :
    result (m >>= k) gauge = (result m gauge).bind f := by
  rw [result, outcome_bind hm, result]
  cases outcome m gauge with
  | error e => rfl
  | ok r => exact hf r

/-- A larger bound on the tokens left is not seen in the result. -/
theorem result_bind_widen {a b : Nat} {m : Reading (Read α a)} (hm : Balanced m)
    (h : Read α a → a ≤ b) (gauge : Nat) :
    result (m >>= fun r => pure (r.widen (h r))) gauge = result m gauge := by
  rw [result, outcome_bind hm, result]
  cases outcome m gauge <;> rfl

/-- A nested reading has the result of its body one level further down. -/
theorem result_nested {bound : Nat} (s : List Token) (body : Reading (Read α bound))
    (gauge : Nat) :
    result (nested s body) gauge =
      if gauge < nestingLimit then result body (gauge + 1) else .error ⟨s, .tooDeep⟩ := by
  rw [result, outcome_nested]
  split <;> rfl

/-! ### Single tokens and intervals -/

theorem result_expect (token : Token) (what : Expectation) (s : List Token) (gauge : Nat) :
    result (expect token what s) gauge =
      match s with
      | t :: rest => if t = token then .ok ((), rest) else .error ⟨t :: rest, .expected what⟩
      | [] => .error ⟨[], .expected what⟩ := by
  cases s with
  | nil => rfl
  | cons t rest => by_cases h : t = token <;> simp only [expect, h, ↓reduceIte] <;> rfl

theorem result_bound (what : Expectation) (s : List Token) (gauge : Nat) :
    result (bound what s) gauge =
      match s with
      | .number n :: rest =>
        if h : n.value < UInt64.size then .ok (.ofNatLT n.value h, rest)
        else .error ⟨.number n :: rest, .integerTooLarge n⟩
      | s => .error ⟨s, .expected what⟩ := by
  cases s with
  | nil => rfl
  | cons t rest =>
      cases t with
      | number n =>
          by_cases h : n.value < UInt64.size <;> simp only [bound, h, ↓reduceDIte] <;> rfl
      | _ => rfl

theorem result_interval (s : List Token) (gauge : Nat) :
    result (interval s) gauge =
      (result (expect .openBracket .openBracket s) gauge).bind fun opening =>
      (result (bound .lowerBound opening.2) gauge).bind fun lower =>
      (result (expect .comma .comma lower.2) gauge).bind fun comma =>
      (result (bound .upperBound comma.2) gauge).bind fun upper =>
      (result (expect .closeBracket .closeBracket upper.2) gauge).bind fun closing =>
      match Interval.of lower.1 upper.1 with
      | .ok I => .ok (I, closing.2)
      | .error e => .error ⟨s, .bounds e⟩ := by
  unfold interval
  refine result_bind (balanced_expect _ _ _) fun opening => ?_
  refine result_bind (balanced_bound _ _) fun lower => ?_
  refine result_bind (balanced_expect _ _ _) fun comma => ?_
  refine result_bind (balanced_bound _ _) fun upper => ?_
  refine result_bind (balanced_expect _ _ _) fun closing => ?_
  simp only [Read.pair]
  cases Interval.of lower.value upper.value <;> rfl

/-! ### Expressions -/

theorem result_unary (what : Expectation) (s : List Token) (gauge : Nat) :
    result (unary what s) gauge =
      if gauge < nestingLimit then
        match s with
        | .constant value :: rest => .ok (.const value, rest)
        | .variable id :: rest =>
          if h : id.value < UInt32.size then .ok (.var (.ofNatLT id.value h), rest)
          else .error ⟨.variable id :: rest, .variableTooLarge id⟩
        | .negation :: rest =>
          (result (unary .operand rest) (gauge + 1)).bind fun x => .ok (.neg x.1, x.2)
        | .unary op :: rest =>
          (result (interval rest) (gauge + 1)).bind fun I =>
          (result (unary .operand I.2) (gauge + 1)).bind fun x => .ok (.unary op I.1 x.1, x.2)
        | .openParen :: rest =>
          (result (expression loosestLevel .formula rest) (gauge + 1)).bind fun inner =>
          (result (expect .closeParen .closeParen inner.2) (gauge + 1)).bind fun closing =>
          .ok (inner.1, closing.2)
        | s => .error ⟨s, .expected what⟩
      else .error ⟨s, .tooDeep⟩ := by
  rw [unary.eq_def, result_nested]
  refine if_congr Iff.rfl ?_ rfl
  cases s with
  | nil => rfl
  | cons t rest =>
      cases t with
      | «variable» id =>
          by_cases h : id.value < UInt32.size <;> simp only [h, ↓reduceDIte] <;> rfl
      | negation => exact result_bind (balanced_unary _ _) fun x => rfl
      | unary op =>
          exact result_bind (balanced_interval _) fun I =>
            result_bind (balanced_unary _ _) fun x => rfl
      | openParen =>
          exact result_bind (balanced_expression _ _ _) fun inner =>
            result_bind (balanced_expect _ _ _) fun closing => rfl
      | _ => rfl

theorem result_expression_zero (what : Expectation) (s : List Token) (gauge : Nat) :
    result (expression 0 what s) gauge = result (unary what s) gauge := by
  rw [expression]

theorem result_expression_succ (n : Nat) (what : Expectation) (s : List Token)
    (gauge : Nat) :
    result (expression (n + 1) what s) gauge =
      (result (expression n what s) gauge).bind fun first =>
        result (chain n first.1 first.2) gauge := by
  rw [expression]
  refine result_bind (balanced_expression _ _ _) fun first => ?_
  exact result_bind_widen (balanced_chain _ _ _) _ gauge

/-- The infix operator that stands next and the tokens after it, if it has the given level. -/
def infixResult (level : Nat) (s : List Token) (gauge : Nat) :
    Except Failure (Option (InfixOperator × List Token)) :=
  (outcome (infixOfLevel level s) gauge).map (Option.map Read.pair)

theorem infixResult_eq (level : Nat) (s : List Token) (gauge : Nat) :
    infixResult level s gauge =
      match s with
      | .connective op :: rest =>
        if connectiveLevel op = level then .ok (some (.connective op, rest)) else .ok none
      | .binary op :: rest =>
        if temporalLevel = level then
          (result (interval rest) gauge).map fun I => some (.temporal op I.1, I.2)
        else .ok none
      | _ => .ok none := by
  cases s with
  | nil => rfl
  | cons t rest =>
      cases t with
      | connective op =>
          by_cases h : connectiveLevel op = level <;>
            simp only [infixResult, infixOfLevel, h, ↓reduceIte] <;> rfl
      | binary op =>
          by_cases h : temporalLevel = level
          · simp only [infixResult, infixOfLevel, h, ↓reduceIte]
            rw [outcome_bind (balanced_interval _), MissionTime.Syntax.result]
            cases outcome (interval rest) gauge <;> rfl
          · simp only [infixResult, infixOfLevel, h, ↓reduceIte]
            rfl
      | _ => rfl

theorem result_chain (n : Nat) (left : Formula) (s : List Token) (gauge : Nat) :
    result (chain n left s) gauge =
      (infixResult (n + 1) s gauge).bind fun
        | none => .ok (left, s)
        | some op =>
          (result (expression n .operand op.2) gauge).bind fun right =>
            result (chain n (op.1.apply left right.1) right.2) gauge := by
  rw [chain, result, outcome_bind (balanced_infixOfLevel _ _), infixResult]
  cases outcome (infixOfLevel (n + 1) s) gauge with
  | error e => rfl
  | ok next =>
      cases next with
      | none => rfl
      | some op =>
          refine result_bind (balanced_expression _ _ _) fun right => ?_
          exact result_bind_widen (balanced_chain _ _ _) _ gauge

end MissionTime.Syntax
