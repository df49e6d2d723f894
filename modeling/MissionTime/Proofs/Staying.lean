import MissionTime.Proofs.ReadingMachine
import MissionTime.Proofs.Stopping

/-!
# Readings Stay within Their Tokens

A reading takes tokens from the front of those it is given. So what it leaves, and also what is left
where it fails, is an end of these tokens, and if it succeeds it leaves fewer of them. A chain goes
on by rounds, in each of which an operator and its right operand are taken from the tokens.

The readings are written as one function for all unary expressions. This module takes it apart into
the alternatives among which the first token selects, so that each of them can be spoken of.

## Main definitions

* `constantLeaf`, `variableLeaf`, `negated`, `bounded`, `subformula`: the alternatives of a unary
  expression.
* `StaysIn`: the results whose tokens are an end of those that were given.
* `Round`, `Rounds`: one round of a chain, and any number of them.

## Main results

* `unary_eq_nested_alternative`: a unary expression is one of the alternatives.
* `staysIn_readings`: the readings stay within what they are given.
* `Round.suffix`, `Rounds.suffix`: what a round leaves, and what all rounds leave.
-/

namespace MissionTime.Syntax

variable {α β : Type}

/-! ### The alternatives of unary expressions -/

/-- What is made of a value that was read, with the same tokens left. -/
def Read.map {bound : Nat} (f : α → β) (r : Read α bound) : Read β bound :=
  ⟨f r.value, r.rest, r.length_lt⟩

/-- A value that was read behind a token. -/
def Read.behind {token : Token} {rest : List Token} (r : Read α rest.length) :
    Read α (token :: rest).length :=
  r.widen (Nat.le_succ _)

/-- Reads a constant. -/
def constantLeaf (what : Expectation) (s : List Token) : Reading (Read Formula s.length) :=
  match s with
  | .constant value :: _ => pure (.ofHead (.const value))
  | s => throw ⟨s, .expected what⟩

/-- Reads a variable. -/
def variableLeaf (what : Expectation) (s : List Token) : Reading (Read Formula s.length) :=
  match s with
  | .variable id :: rest =>
    if h : id.value < UInt32.size then pure (.ofHead (.var (.ofNatLT id.value h)))
    else throw ⟨.variable id :: rest, .variableTooLarge id⟩
  | s => throw ⟨s, .expected what⟩

/-- Reads a negation. -/
def negated (what : Expectation) (s : List Token) : Reading (Read Formula s.length) :=
  match s with
  | .negation :: rest => do
    let x ← unary .operand rest
    pure (x.map .neg).behind
  | s => throw ⟨s, .expected what⟩

/-- Reads a unary temporal operator with its interval and its operand. -/
def bounded (what : Expectation) (s : List Token) : Reading (Read Formula s.length) :=
  match s with
  | .unary op :: rest => do
    let I ← interval rest
    let x ← unary .operand I.rest
    pure ((x.map (.unary op I.value)).widen (Nat.le_of_lt I.length_lt)).behind
  | s => throw ⟨s, .expected what⟩

/-- Reads a formula in parentheses. -/
def subformula (what : Expectation) (s : List Token) : Reading (Read Formula s.length) :=
  match s with
  | .openParen :: rest => do
    let inner ← expression loosestLevel .formula rest
    let closing ← expect .closeParen .closeParen inner.rest
    pure ((closing.map fun _ => inner.value).widen (Nat.le_of_lt inner.length_lt)).behind
  | s => throw ⟨s, .expected what⟩

/-- The alternative that the first token selects. -/
def alternative (what : Expectation) (s : List Token) : Reading (Read Formula s.length) :=
  match s.head? with
  | some (.constant _) => constantLeaf what s
  | some (.variable _) => variableLeaf what s
  | some .negation => negated what s
  | some (.unary _) => bounded what s
  | some .openParen => subformula what s
  | _ => throw ⟨s, .expected what⟩

/-- **A unary expression** is one of the alternatives, one level further down. -/
theorem unary_eq_nested_alternative (what : Expectation) (s : List Token) :
    unary what s = nested s (alternative what s) := by
  rw [unary.eq_def]
  cases s with
  | nil => rfl
  | cons t rest => cases t <;> rfl

/-! ### Readings stay within their tokens -/

/-- **A result that stays** within the tokens `s`: what is left of them, or what is left where the
reading failed, is an end of `s`. -/
structure StaysIn (s : List Token) (r : Except Failure (α × List Token)) : Prop where
  ok : ∀ p, r = .ok p → p.2 <:+ s
  error : ∀ e, r = .error e → e.rest <:+ s

theorem staysIn_ok {s : List Token} {p : α × List Token} (h : p.2 <:+ s) : StaysIn s (.ok p) where
  ok _ hp := Except.ok.inj hp ▸ h
  error _ he := by cases he

theorem staysIn_error {s : List Token} {e : Failure} (h : e.rest <:+ s) :
    StaysIn s (.error e : Except Failure (α × List Token)) where
  ok _ hp := by cases hp
  error _ he := Except.error.inj he ▸ h

/-- The tokens may be an end of more tokens. -/
theorem StaysIn.of_suffix {s s' : List Token} {r : Except Failure (α × List Token)}
    (h : StaysIn s r) (hs : s <:+ s') : StaysIn s' r where
  ok p hp := (h.ok p hp).trans hs
  error e he := (h.error e he).trans hs

theorem StaysIn.cons {t : Token} {s : List Token} {r : Except Failure (α × List Token)}
    (h : StaysIn s r) : StaysIn (t :: s) r :=
  h.of_suffix (List.suffix_cons t s)

/-- **Readings that stay compose**: the second one stays within what the first one leaves. -/
theorem StaysIn.bind {s : List Token} {r : Except Failure (α × List Token)} (h : StaysIn s r)
    {f : α × List Token → Except Failure (β × List Token)}
    (hf : ∀ p, r = .ok p → StaysIn p.2 (f p)) : StaysIn s (r.bind f) := by
  cases r with
  | error e => exact staysIn_error (h.error e rfl)
  | ok p => exact (hf p rfl).of_suffix (h.ok p rfl)

/-- The same for readings that are composed. -/
theorem StaysIn.result_bind {a b gauge : Nat} {s : List Token} {m : Reading (Read α a)}
    (h : StaysIn s (result m gauge)) (hm : Balanced m) {k : Read α a → Reading (Read β b)}
    (hk : ∀ r, StaysIn r.rest (result (k r) gauge)) : StaysIn s (result (m >>= k) gauge) := by
  have hbind : result (m >>= k) gauge =
      (outcome m gauge).bind fun r => result (k r) gauge := by
    rw [result, outcome_bind hm]
    cases outcome m gauge <;> rfl
  rw [hbind]
  rw [result] at h
  cases hr : outcome m gauge with
  | error e => exact staysIn_error (h.error e (by rw [hr]; rfl))
  | ok r => exact (hk r).of_suffix (h.ok r.pair (by rw [hr]; rfl))

theorem staysIn_expect (token : Token) (what : Expectation) (s : List Token) (gauge : Nat) :
    StaysIn s (result (expect token what s) gauge) where
  ok p hp := by
    rw [result_expect_eq_ok_iff.mp hp]
    exact List.suffix_cons _ _
  error e he := by
    obtain ⟨rfl, -⟩ := result_expect_eq_error he
    exact List.suffix_rfl

theorem staysIn_interval (s : List Token) (gauge : Nat) :
    StaysIn s (result (interval s) gauge) where
  ok p hp := by
    obtain ⟨ts, -, hs⟩ := result_interval_eq_ok_iff.mp hp
    exact ⟨ts, hs.symm⟩
  error e he := by
    obtain ⟨ts, -, hs, -⟩ := awaits_of_result_interval he
    exact ⟨ts, hs.symm⟩

section

variable {what : Expectation} {s : List Token} {gauge : Nat}

theorem staysIn_constantLeaf : StaysIn s (result (constantLeaf what s) gauge) := by
  unfold constantLeaf
  split
  · exact staysIn_ok (List.suffix_cons _ _)
  · exact staysIn_error List.suffix_rfl

theorem staysIn_variableLeaf : StaysIn s (result (variableLeaf what s) gauge) := by
  unfold variableLeaf
  split
  · split
    · exact staysIn_ok (List.suffix_cons _ _)
    · exact staysIn_error List.suffix_rfl
  · exact staysIn_error List.suffix_rfl

theorem staysIn_negated
    (ih : ∀ s', s'.length < s.length → ∀ gauge, StaysIn s' (result (unary .operand s') gauge)) :
    StaysIn s (result (negated what s) gauge) := by
  unfold negated
  split
  · refine .result_bind (.cons (ih _ (Nat.lt_succ_self _) gauge)) (balanced_unary _ _) fun x => ?_
    exact staysIn_ok List.suffix_rfl
  · exact staysIn_error List.suffix_rfl

theorem staysIn_bounded
    (ih : ∀ s', s'.length < s.length → ∀ gauge, StaysIn s' (result (unary .operand s') gauge)) :
    StaysIn s (result (bounded what s) gauge) := by
  unfold bounded
  split
  · refine .result_bind (.cons (staysIn_interval _ gauge)) (balanced_interval _) fun I => ?_
    refine (ih _ (Nat.lt_succ_of_lt I.length_lt) gauge).result_bind (balanced_unary _ _) fun x => ?_
    exact staysIn_ok List.suffix_rfl
  · exact staysIn_error List.suffix_rfl

theorem staysIn_subformula
    (ih : ∀ s', s'.length < s.length → ∀ gauge,
      StaysIn s' (result (expression loosestLevel .formula s') gauge)) :
    StaysIn s (result (subformula what s) gauge) := by
  unfold subformula
  split
  · refine .result_bind (.cons (ih _ (Nat.lt_succ_self _) gauge)) (balanced_expression _ _ _)
      fun inner => ?_
    refine (staysIn_expect _ _ _ gauge).result_bind (balanced_expect _ _ _) fun closing => ?_
    exact staysIn_ok List.suffix_rfl
  · exact staysIn_error List.suffix_rfl

theorem staysIn_unary
    (ihunary : ∀ s', s'.length < s.length → ∀ gauge,
      StaysIn s' (result (unary .operand s') gauge))
    (ihformula : ∀ s', s'.length < s.length → ∀ gauge,
      StaysIn s' (result (expression loosestLevel .formula s') gauge)) :
    StaysIn s (result (unary what s) gauge) := by
  rw [unary_eq_nested_alternative, result_nested]
  split
  · unfold alternative
    split
    · exact staysIn_constantLeaf
    · exact staysIn_variableLeaf
    · exact staysIn_negated ihunary
    · exact staysIn_bounded ihunary
    · exact staysIn_subformula ihformula
    · exact staysIn_error List.suffix_rfl
  · exact staysIn_error List.suffix_rfl

theorem staysIn_chain {n : Nat} {left : Formula}
    (ihoperand : ∀ s', s'.length < s.length → ∀ gauge,
      StaysIn s' (result (expression n .operand s') gauge))
    (ihchain : ∀ left' s', s'.length < s.length → ∀ gauge,
      StaysIn s' (result (chain n left' s') gauge)) :
    StaysIn s (result (chain n left s) gauge) := by
  rw [result_chain]
  rcases hop : infixResult (n + 1) s gauge with e | _ | op
  · obtain ⟨op, is, w, hs, -⟩ := awaits_of_infixResult hop
    exact staysIn_error ⟨.binary op :: is, hs.symm⟩
  · exact staysIn_ok List.suffix_rfl
  · obtain ⟨ts, -, hs⟩ := infixResult_eq_some_iff.mp hop
    have hlt := length_lt_of_infixResult hop
    refine StaysIn.of_suffix ?_ ⟨ts, hs.symm⟩
    exact (ihoperand _ hlt gauge).bind fun right hright =>
      ihchain _ _ (Nat.lt_trans (length_lt_of_result hright) hlt) gauge

end

/-- **The readings stay within their tokens**, by induction along their recursion. -/
theorem staysIn_readings (s : List Token) :
    (∀ what gauge, StaysIn s (result (unary what s) gauge)) ∧
      (∀ n what gauge, StaysIn s (result (expression n what s) gauge)) ∧
      ∀ n left gauge, StaysIn s (result (chain n left s) gauge) := by
  refine reading_induction
    (U := fun what s => ∀ gauge, StaysIn s (result (unary what s) gauge))
    (E := fun n what s => ∀ gauge, StaysIn s (result (expression n what s) gauge))
    (C := fun n left s => ∀ gauge, StaysIn s (result (chain n left s) gauge)) ?_ ?_ ?_ ?_ s
  · exact fun what s ihunary ihformula gauge => staysIn_unary (ihunary .operand) ihformula
  · intro what s hunary gauge
    rw [result_expression_zero]
    exact hunary gauge
  · intro n what s hfirst ihchain gauge
    rw [result_expression_succ]
    exact (hfirst gauge).bind fun first hlt => ihchain _ _ (length_lt_of_result hlt) gauge
  · exact fun n left s ihoperand ihchain gauge => staysIn_chain ihoperand ihchain

/-! ### Rounds of a chain -/

/-- **One round of a chain.** An operator one level above `n` and the operand on its right are
taken from the tokens, and they are joined to what stands on the left. -/
inductive Round (n gauge : Nat) : Formula × List Token → Formula × List Token → Prop
  | intro {left right : Formula} {op : InfixOperator} {s next rest : List Token}
      (hop : infixResult (n + 1) s gauge = .ok (some (op, next)))
      (hright : result (expression n .operand next) gauge = .ok (right, rest)) :
      Round n gauge (left, s) (op.apply left right, rest)

variable {n gauge : Nat} {p q : Formula × List Token}

/-- A round leaves an end of the tokens, with an operator and an operand less. -/
theorem Round.suffix (h : Round n gauge p q) : q.2 <:+ p.2 ∧ q.2.length < p.2.length := by
  obtain ⟨hop, hright⟩ := h
  obtain ⟨ts, -, rfl⟩ := infixResult_eq_some_iff.mp hop
  have hrest := ((staysIn_readings _).2.1 _ _ _).ok _ hright
  exact ⟨hrest.trans (List.suffix_append ts _),
    Nat.lt_trans (length_lt_of_result hright) (length_lt_of_infixResult hop)⟩

/-- After a round the chain goes on with what has been made and what is left. -/
theorem Round.result_chain_eq (h : Round n gauge p q) :
    result (chain n p.1 p.2) gauge = result (chain n q.1 q.2) gauge := by
  obtain ⟨hop, hright⟩ := h
  rw [result_chain, hop]
  simp only [Except.bind, hright]

/-- Any number of rounds of a chain. -/
def Rounds (n gauge : Nat) : Formula × List Token → Formula × List Token → Prop :=
  Relation.ReflTransGen (Round n gauge)

/-- **All rounds together** leave an end of the tokens, and the chain goes on from there. Induction
on the rounds. -/
theorem Rounds.suffix (h : Rounds n gauge p q) :
    q.2 <:+ p.2 ∧ result (chain n p.1 p.2) gauge = result (chain n q.1 q.2) gauge := by
  induction h with
  | refl => exact ⟨List.suffix_rfl, rfl⟩
  | tail _ hround ih =>
      exact ⟨hround.suffix.1.trans ih.1, ih.2.trans hround.result_chain_eq⟩

/-- A chain goes a round, or it ends with what it has, or it fails. -/
theorem round_or_end (n gauge : Nat) (p : Formula × List Token) :
    (∃ q, Round n gauge p q) ∨ result (chain n p.1 p.2) gauge = .ok p ∨
      ∃ e, result (chain n p.1 p.2) gauge = .error e := by
  rw [result_chain]
  rcases hop : infixResult (n + 1) p.2 gauge with e | _ | ⟨op, next⟩
  · exact .inr (.inr ⟨e, rfl⟩)
  · exact .inr (.inl rfl)
  · rcases hright : result (expression n .operand next) gauge with e | ⟨right, rest⟩
    · exact .inr (.inr ⟨e, by simp only [Except.bind, hright]⟩)
    · exact .inl ⟨_, .intro hop hright⟩

end MissionTime.Syntax
