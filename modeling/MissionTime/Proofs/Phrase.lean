import MissionTime.Proofs.Derivation

/-!
# Phrases

The language of formulas without the two limits that are no matter of grammar: that on nesting,
and that the bounds of an interval are in order. Numbers still have to fit their words. Tokens
that are a formula in this wider sense are *phrases*.

A phrase that is not read as a formula is refused for one of the two limits. So where tokens
are refused for another reason, they are no phrase.

## Main definitions

* `IntervalPhrase`, `InfixPhrase`, `Phrase`: the grammar, without trees.
* `InLanguage`: the texts that spell a phrase.
* `Failure.IsLimit`: failures for one of the two limits.

## Main results

* `Derives.phrase`: what derives a formula is a phrase.
* `result_expression_of_phrase`: phrases are read, or refused for a limit.
* `outcome_formula_of_phrase`: the same for whole token sequences.
-/

namespace MissionTime.Syntax

open Text

/-! ### The grammar -/

/-- An interval as it is written: two numerals in brackets that are 64-bit words, in any
order. -/
inductive IntervalPhrase : List Token → Prop
  | bounds {a b : Numeral} (ha : a.value < UInt64.size) (hb : b.value < UInt64.size) :
      IntervalPhrase [.openBracket, .number a, .comma, .number b, .closeBracket]

/-- An infix operator as it is written, with its level. -/
inductive InfixPhrase : Nat → List Token → Prop
  | temporal {op : BinaryTemporal} {ts : List Token} (hI : IntervalPhrase ts) :
      InfixPhrase 1 (.binary op :: ts)
  | connective {n : Nat} {op : Connective}
      (hop : DerivesInfix n [.connective op] (.connective op)) : InfixPhrase n [.connective op]

/-- **Phrases.** `Phrase n ts` says that the tokens `ts` are an expression of level `n`, however
deep it is nested and in whatever order the bounds of its intervals are. -/
inductive Phrase : Nat → List Token → Prop
  | constant (value : Bool) : Phrase 0 [.constant value]
  | variable {id : Numeral} (hid : id.value < UInt32.size) : Phrase 0 [.variable id]
  | negation {ts : List Token} (hx : Phrase 0 ts) : Phrase 0 (.negation :: ts)
  | unary {op : UnaryTemporal} {is ts : List Token} (hI : IntervalPhrase is)
      (hx : Phrase 0 ts) : Phrase 0 (.unary op :: (is ++ ts))
  | parens {ts : List Token} (hx : Phrase 6 ts) :
      Phrase 0 (.openParen :: (ts ++ [.closeParen]))
  | single {n : Nat} {ts : List Token} (hx : Phrase n ts) : Phrase (n + 1) ts
  | chain {n : Nat} {ts os us : List Token} (hl : Phrase (n + 1) ts)
      (hop : InfixPhrase (n + 1) os) (hr : Phrase n us) : Phrase (n + 1) (ts ++ (os ++ us))

/-- **The language**: the texts that spell a phrase of the loosest level. -/
def InLanguage (text : List Char) : Prop :=
  ∃ ts, Spells ts text ∧ Phrase 6 ts

/-! ### Derivations are phrases -/

theorem DerivesInterval.phrase {ts : List Token} {I : Interval} (h : DerivesInterval ts I) :
    IntervalPhrase ts := by
  cases h with
  | bounds ha hb => exact .bounds (ha ▸ I.lower.toNat_lt_size) (hb ▸ I.upper.toNat_lt_size)

theorem DerivesInfix.phrase {n : Nat} {ts : List Token} {op : InfixOperator}
    (h : DerivesInfix n ts op) : InfixPhrase n ts := by
  cases h with
  | temporal hI => exact .temporal hI.phrase
  | and => exact .connective .and
  | xor => exact .connective .xor
  | or => exact .connective .or
  | implies => exact .connective .implies
  | equiv => exact .connective .equiv

/-- What derives a formula is a phrase. -/
theorem Derives.phrase {n k : Nat} {ts : List Token} {f : Formula} (h : Derives n k ts f) :
    Phrase n ts := by
  induction h with
  | constant value => exact .constant value
  | @«variable» id i hid => exact .variable (hid ▸ i.toNat_lt_size)
  | negation _ ih => exact .negation ih
  | unary hI _ ih => exact .unary hI.phrase ih
  | parens _ ih => exact .parens ih
  | single _ ih => exact .single ih
  | chain _ hop _ _ ihl ihr => exact .chain ihl hop.phrase ihr

/-! ### Where numbers stand -/

theorem IntervalPhrase.separable {ts : List Token} (h : IntervalPhrase ts) : Separable ts := by
  cases h with
  | bounds _ _ => exact ⟨by simp [MayFollow], by simp⟩

theorem InfixPhrase.separable {n : Nat} {ts : List Token} (h : InfixPhrase n ts) :
    Separable ts := by
  cases h with
  | temporal hI => exact hI.separable.cons (by simp)
  | connective hop => exact hop.separable

/-- In a phrase, numbers stand only behind brackets and commas. -/
theorem Phrase.separable {n : Nat} {ts : List Token} (h : Phrase n ts) : Separable ts := by
  induction h with
  | constant value => exact separable_singleton (by simp)
  | «variable» _ => exact separable_singleton (by simp)
  | negation _ ih => exact ih.cons (by simp)
  | unary hI _ ih => exact (hI.separable.append ih).cons (by simp)
  | parens _ ih => exact (ih.append (separable_singleton (by simp))).cons (by simp)
  | single _ ih => exact ih
  | chain _ hop _ ihl ihr => exact ihl.append (hop.separable.append ihr)

theorem InfixPhrase.stops {n : Nat} {ts : List Token} (h : InfixPhrase n ts) (s : List Token) :
    Stops n (ts ++ s) := by
  cases h with
  | temporal _ =>
      intro t ht level hlevel
      cases ht
      cases hlevel
      exact Nat.le_refl 1
  | connective hop => exact hop.stops s

/-! ### Refusals for a limit -/

/-- A failure for one of the **limits** that are no matter of grammar. -/
def Failure.IsLimit (e : Failure) : Prop :=
  e.cause = .tooDeep ∨ ∃ b, e.cause = .bounds b

variable {α β : Type}

/-- A result is a refusal for a limit. -/
def LimitReached (r : Except Failure α) : Prop :=
  ∃ e, r = .error e ∧ e.IsLimit

/-- What is read after a refusal does not matter. -/
theorem LimitReached.bind {r : Except Failure α} (h : LimitReached r)
    (f : α → Except Failure β) : LimitReached (r.bind f) := by
  obtain ⟨e, rfl, he⟩ := h
  exact ⟨e, rfl, he⟩

theorem LimitReached.map {r : Except Failure α} (h : LimitReached r) (f : α → β) :
    LimitReached (r.map f) := by
  obtain ⟨e, rfl, he⟩ := h
  exact ⟨e, rfl, he⟩

/-- At the nesting limit no unary expression is read. -/
theorem limitReached_unary {gauge : Nat} (h : ¬ gauge < nestingLimit) (what : Expectation)
    (s : List Token) : LimitReached (result (unary what s) gauge) :=
  ⟨⟨s, .tooDeep⟩, by rw [result_unary, if_neg h], Or.inl rfl⟩

/-! ### Reading phrases -/

/-- An interval is read, or its bounds are out of order. -/
theorem result_interval_of_phrase {is : List Token} (h : IntervalPhrase is)
    (rest : List Token) (gauge : Nat) :
    (∃ I, result (interval (is ++ rest)) gauge = .ok (I, rest)) ∨
      LimitReached (result (interval (is ++ rest)) gauge) := by
  cases h with
  | @bounds a b ha hb =>
      simp only [result_interval, result_expect, result_bound, List.cons_append,
        List.nil_append, ↓reduceIte, Except.bind, dif_pos ha, dif_pos hb]
      cases Interval.of (.ofNatLT a.value ha) (.ofNatLT b.value hb) with
      | ok I => exact Or.inl ⟨I, rfl⟩
      | error e => exact Or.inr ⟨_, rfl, Or.inr ⟨e, rfl⟩⟩

/-- An infix operator is read, or the bounds of its interval are out of order. -/
theorem infixResult_of_phrase {n : Nat} {os : List Token} (h : InfixPhrase n os)
    (rest : List Token) (gauge : Nat) :
    (∃ op, infixResult n (os ++ rest) gauge = .ok (some (op, rest))) ∨
      LimitReached (infixResult n (os ++ rest) gauge) := by
  cases h with
  | temporal hI =>
      rw [infixResult_eq]
      simp only [List.cons_append, temporalLevel, ↓reduceIte]
      obtain ⟨I, hread⟩ | hlimit := result_interval_of_phrase hI rest gauge
      · rw [hread]
        exact Or.inl ⟨_, rfl⟩
      · exact Or.inr (hlimit.map _)
  | connective hop => exact Or.inl ⟨_, infixResult_of_derives hop rest gauge⟩

/-- A unary expression is read or refused for a limit, if that is so where there is a level
left for it. -/
theorem result_expression_zero_of_body {what : Expectation} {s rest : List Token} {gauge : Nat}
    (hbody : gauge < nestingLimit → (∃ x, result (unary what s) gauge = .ok (x, rest)) ∨
      LimitReached (result (unary what s) gauge)) :
    (∃ x, result (expression 0 what s) gauge = resumed 0 x rest gauge) ∨
      LimitReached (result (expression 0 what s) gauge) := by
  rw [result_expression_zero]
  by_cases hlimit : gauge < nestingLimit
  · exact hbody hlimit
  · exact Or.inr (limitReached_unary hlimit what s)

/-- **Phrases are read.** The reading of an expression takes the tokens of a phrase and goes on
from there, or it is refused for a limit on the way. -/
theorem result_expression_of_phrase {n : Nat} {ts : List Token} (h : Phrase n ts)
    (what : Expectation) {rest : List Token} (hrest : Stops n rest) (gauge : Nat) :
    (∃ x, result (expression n what (ts ++ rest)) gauge = resumed n x rest gauge) ∨
      LimitReached (result (expression n what (ts ++ rest)) gauge) := by
  induction h generalizing what rest gauge with
  | constant value =>
      refine result_expression_zero_of_body fun hlimit => Or.inl ⟨.const value, ?_⟩
      rw [result_unary, if_pos hlimit]
      rfl
  | @«variable» id hid =>
      refine result_expression_zero_of_body fun hlimit => ?_
      refine Or.inl ⟨.var (.ofNatLT id.value hid), ?_⟩
      rw [result_unary, if_pos hlimit]
      simp only [List.cons_append, List.nil_append, dif_pos hid]
  | @negation ts _ ih =>
      refine result_expression_zero_of_body fun hlimit => ?_
      have hx := ih .operand (stops_zero rest) (gauge + 1)
      rw [result_expression_zero] at hx
      rw [result_unary, if_pos hlimit]
      obtain ⟨x, hread⟩ | hrefused := hx
      · simp only [List.cons_append, hread]
        exact Or.inl ⟨.neg x, rfl⟩
      · exact Or.inr (hrefused.bind _)
  | @unary op is ts hI _ ih =>
      refine result_expression_zero_of_body fun hlimit => ?_
      have hx := ih .operand (stops_zero rest) (gauge + 1)
      rw [result_expression_zero] at hx
      rw [result_unary, if_pos hlimit]
      simp only [List.cons_append, List.append_assoc]
      obtain ⟨I, hinterval⟩ | hrefused := result_interval_of_phrase hI (ts ++ rest) (gauge + 1)
      · rw [hinterval]
        obtain ⟨x, hread⟩ | hrefused := hx
        · simp only [Except.bind, hread]
          exact Or.inl ⟨.unary op I x, rfl⟩
        · exact Or.inr (hrefused.bind _)
      · exact Or.inr (hrefused.bind _)
  | @parens ts _ ih =>
      refine result_expression_zero_of_body fun hlimit => ?_
      have hx := ih .formula (stops_closeParen 6 rest) (gauge + 1)
      rw [result_unary, if_pos hlimit]
      simp only [List.cons_append, List.append_assoc, List.nil_append, loosestLevel]
      obtain ⟨x, hread⟩ | hrefused := hx
      · have hclose : result (expect .closeParen .closeParen (.closeParen :: rest)) (gauge + 1) =
            .ok ((), rest) := result_expect_eq_ok_iff.mpr rfl
        rw [hread, resumed_of_stops (stops_closeParen 7 rest)]
        simp only [Except.bind, hclose]
        exact Or.inl ⟨x, rfl⟩
      · exact Or.inr (hrefused.bind _)
  | @single n ts _ ih =>
      rw [result_expression_succ]
      obtain ⟨x, hread⟩ | hrefused := ih what (hrest.mono (Nat.le_succ n)) gauge
      · rw [hread, resumed_of_stops hrest]
        exact Or.inl ⟨x, rfl⟩
      · exact Or.inr (hrefused.bind _)
  | @chain n ts os us _ hop _ ihl ihr =>
      rw [List.append_assoc, List.append_assoc]
      obtain ⟨l, hleft⟩ | hrefused := ihl what (hop.stops (us ++ rest)) gauge
      · rw [hleft, resumed, result_chain]
        obtain ⟨op, hnext⟩ | hrefused := infixResult_of_phrase hop (us ++ rest) gauge
        · rw [hnext]
          obtain ⟨r, hright⟩ | hrefused := ihr .operand (hrest.mono (Nat.le_succ n)) gauge
          · rw [resumed_of_stops hrest] at hright
            simp only [Except.bind, hright]
            exact Or.inl ⟨op.apply l r, rfl⟩
          · exact Or.inr (hrefused.bind _)
        · exact Or.inr (hrefused.bind _)
      · exact Or.inr hrefused

/-- **A whole phrase is read as a formula**, or refused for a limit. -/
theorem outcome_formula_of_phrase {s : List Token} (h : Phrase 6 s) (gauge : Nat) :
    (∃ f, outcome (formula s) gauge = .ok f) ∨ LimitReached (outcome (formula s) gauge) := by
  have hread := result_expression_of_phrase h .formula (stops_nil 6) gauge
  rw [List.append_nil] at hread
  rw [outcome_formula, loosestLevel]
  obtain ⟨f, hf⟩ | hrefused := hread
  · rw [hf, resumed_of_stops (stops_nil 7)]
    exact Or.inl ⟨f, rfl⟩
  · exact Or.inr (hrefused.bind _)

end MissionTime.Syntax
