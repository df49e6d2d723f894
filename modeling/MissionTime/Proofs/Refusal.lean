import MissionTime.Proofs.Stopping

/-!
# What the Grammar Refuses

That a reading comes to a place, and stops there if a token comes that is not admitted, follows
from the tokens up to this one alone, whatever follows them. With the converse, that every
failure happens at a place, this locates errors. The tokens before a failure begin a phrase.
And where a token is refused by the grammar, and not for a number or a limit, no phrase begins
with the tokens up to this one: it would be refused as well, and phrases are not.

In both respects all variables are alike, and so are all numbers. That a text goes on behind a
numeral may make it a longer one, but does not change what can stand there.

## Main definitions

* `Token.Alike`: tokens that differ at most in their numerals.
* `Failure.Cause.IsGrammatical`: failures for which the grammar refuses what comes.

## Main results

* `result_expression_of_awaits`: at a place, a token that is not admitted is refused.
* `exists_phrase_of_outcome_formula`: the tokens before a failure begin a phrase.
* `outcome_formula_of_alike`: what follows a token that the grammar refuses does not matter.
* `not_phrase_of_outcome_formula`: those up to a token that the grammar refuses do not.
-/

namespace MissionTime.Syntax

open Text

/-! ### Alike tokens -/

/-- Tokens that differ at most in their numerals. -/
inductive Token.Alike : Token → Token → Prop
  | refl (t : Token) : Token.Alike t t
  | variable (m n : Numeral) : Token.Alike (.variable m) (.variable n)
  | number (m n : Numeral) : Token.Alike (.number m) (.number n)

/-- Where one of two alike tokens is admitted, so is the other. -/
theorem Token.Alike.admits_eq {t t' : Token} (h : t.Alike t') (w : Expectation) :
    w.admits t = w.admits t' := by
  cases h with
  | refl => rfl
  | «variable» m n => cases w <;> rfl
  | number m n => cases w <;> rfl

theorem Token.Alike.infixLevel?_eq {t t' : Token} (h : t.Alike t') :
    t.infixLevel? = t'.infixLevel? := by
  cases h <;> rfl

/-! ### Refused tokens -/

/-- Where a token other than the given one comes, it is refused. -/
theorem result_expect_of_ne {token t : Token} (h : t ≠ token) (what : Expectation)
    (rest : List Token) (gauge : Nat) :
    result (expect token what (t :: rest)) gauge = .error ⟨t :: rest, .expected what⟩ := by
  rw [result_expect]
  exact if_neg h

/-- Where a token other than a number comes, it is refused as a bound. -/
theorem result_bound_of_not_number {t : Token} (h : t.isNumber = false) (what : Expectation)
    (rest : List Token) (gauge : Nat) :
    result (bound what (t :: rest)) gauge = .error ⟨t :: rest, .expected what⟩ := by
  rw [result_bound]
  cases t with
  | number n => cases h
  | _ => rfl

/-- At a place in an interval, a token that is not admitted is refused. -/
theorem result_interval_of_awaits {is : List Token} {w : Expectation} (h : AwaitsInterval is w)
    {t : Token} (ht : w.admits t = false) (rest : List Token) (gauge : Nat) :
    result (interval (is ++ t :: rest)) gauge = .error ⟨t :: rest, .expected w⟩ := by
  have hread (token : Token) (what : Expectation) (s : List Token) :
      result (expect token what (token :: s)) gauge = .ok ((), s) :=
    result_expect_eq_ok_iff.mpr rfl
  have hbound {a : Numeral} (ha : a.value < UInt64.size) (what : Expectation) (s : List Token) :
      result (bound what (.number a :: s)) gauge = .ok (.ofNatLT a.value ha, s) :=
    result_bound_eq_ok_iff.mpr ⟨a, by simp, rfl⟩
  rw [result_interval]
  cases h with
  | openBracket =>
      have hne : t ≠ .openBracket := by simpa [Expectation.admits] using ht
      simp only [List.nil_append, result_expect_of_ne hne, Except.bind]
  | lowerBound =>
      simp only [List.cons_append, List.nil_append, hread, result_bound_of_not_number ht,
        Except.bind]
  | comma ha =>
      have hne : t ≠ .comma := by simpa [Expectation.admits] using ht
      simp only [List.cons_append, List.nil_append, hread, hbound ha, result_expect_of_ne hne,
        Except.bind]
  | upperBound ha =>
      simp only [List.cons_append, List.nil_append, hread, hbound ha,
        result_bound_of_not_number ht, Except.bind]
  | closeBracket ha hb =>
      have hne : t ≠ .closeBracket := by simpa [Expectation.admits] using ht
      simp only [List.cons_append, List.nil_append, hread, hbound ha, hbound hb,
        result_expect_of_ne hne, Except.bind]

/-- **At a place, a token that is not admitted is refused**, if the nesting fits under the
limit. The tokens before the place are read by completeness, as far as they are complete. -/
theorem result_expression_of_awaits {what w : Expectation} {n k : Nat} {ts : List Token}
    (h : Awaits what n k ts w) {t : Token} (ht : w.admits t = false) (rest : List Token)
    (gauge : Nat) (hk : gauge + k ≤ nestingLimit) :
    result (expression n what (ts ++ t :: rest)) gauge = .error ⟨t :: rest, .expected w⟩ := by
  induction h generalizing gauge with
  | @start what hwhat =>
      rw [hwhat.admits_eq] at ht
      rw [result_expression_zero, result_unary, if_pos (by omega)]
      cases t with
      | constant value => cases ht
      | «variable» id => cases ht
      | negation => cases ht
      | unary op => cases ht
      | openParen => cases ht
      | _ => rfl
  | @negation what w k ts _ ih =>
      have hx := ih ht (gauge + 1) (by omega)
      rw [result_expression_zero] at hx
      rw [result_expression_zero, result_unary, if_pos (by omega)]
      simp only [List.cons_append, hx]
      rfl
  | @bounds what w op is hI =>
      have hinterval := result_interval_of_awaits hI ht rest (gauge + 1)
      rw [result_expression_zero, result_unary, if_pos (by omega)]
      simp only [List.cons_append, hinterval]
      rfl
  | @unary what w k op is ts I hI _ ih =>
      have hinterval := result_interval_of_derives hI (ts ++ t :: rest) (gauge + 1)
      have hx := ih ht (gauge + 1) (by omega)
      rw [result_expression_zero] at hx
      rw [result_expression_zero, result_unary, if_pos (by omega)]
      simp only [List.cons_append, List.append_assoc, hinterval, Except.bind, hx]
  | @parens what w k ts _ ih =>
      have hx := ih ht (gauge + 1) (by omega)
      rw [result_expression_zero, result_unary, if_pos (by omega)]
      simp only [List.cons_append, loosestLevel, hx]
      rfl
  | @closing what k ts x hx =>
      obtain ⟨hne, hoperator⟩ : t ≠ .closeParen ∧ t.infixLevel? = none := by
        simpa [Expectation.admits] using ht
      have hstops : Stops 7 (t :: rest) := stops_seven_iff.mpr (by simpa using hoperator)
      have hread := result_expression_of_derives hx .formula (hstops.mono (by decide))
        (gauge + 1) (by omega)
      rw [resumed_of_stops hstops] at hread
      rw [result_expression_zero, result_unary, if_pos (by omega)]
      simp only [List.cons_append, loosestLevel, hread, Except.bind, result_expect_of_ne hne]
  | @first what w n k ts _ ih =>
      rw [result_expression_succ, ih ht gauge hk]
      rfl
  | @operatorBounds what w k ts is l op hl hI =>
      have hinterval := result_interval_of_awaits hI ht rest gauge
      have hread := result_expression_of_derives hl what (stops_one (.binary op :: (is ++ t :: rest)))
        gauge hk
      rw [List.append_assoc, List.cons_append, hread, resumed, result_chain, infixResult_eq]
      simp only [temporalLevel, Nat.zero_add, ↓reduceIte, hinterval]
      rfl
  | @operand what w n k m ts os us l op hl hop _ ih =>
      have hread := result_expression_of_derives hl what (hop.stops (us ++ t :: rest)) gauge
        (by omega)
      have hnext := infixResult_of_derives hop (us ++ t :: rest) gauge
      have hr := ih ht gauge (by omega)
      rw [List.append_assoc, List.append_assoc, hread, resumed, result_chain, hnext]
      simp only [Except.bind, hr]

/-! ### Failures of whole token sequences -/

/-- A failure for which the **grammar** refuses what comes: something else is needed there, or
nothing more is. -/
def Failure.Cause.IsGrammatical (c : Failure.Cause) : Prop :=
  (∃ w, c = .expected w) ∨ c = .trailing

/-- A limit is no matter of grammar. -/
theorem Failure.IsLimit.not_isGrammatical {e : Failure} (h : e.IsLimit) :
    ¬ e.cause.IsGrammatical := by
  obtain hdeep | ⟨b, hbounds⟩ := h
  · rw [hdeep]
    rintro (⟨w, hw⟩ | hw) <;> cases hw
  · rw [hbounds]
    rintro (⟨w, hw⟩ | hw) <;> cases hw

/-- A whole token sequence fails at a place, or where a complete formula is followed by a token
that is no operator. -/
theorem stopped_or_trailing_of_outcome_formula {s : List Token} {gauge : Nat} {e : Failure}
    (h : outcome (formula s) gauge = .error e) :
    Stopped .formula 6 [] s gauge e ∨
      e.cause = .trailing ∧ Stops 7 e.rest ∧
        ∃ ts k x, s = ts ++ e.rest ∧ Derives 6 k ts x ∧ gauge + k ≤ nestingLimit := by
  rw [outcome_formula, bind_eq_error_iff] at h
  obtain hfail | ⟨⟨x, rest⟩, hx, hdone⟩ := h
  · exact Or.inl (stopped_of_result_expression (Or.inl rfl) hfail)
  · cases rest with
    | nil => cases hdone
    | cons t rest =>
        cases hdone
        obtain ⟨ts, k, hs, hts, hk⟩ := derives_of_result_expression hx
        exact Or.inr ⟨rfl, stops_of_result_expression hx, ts, k, x, hs, hts, hk⟩

/-- **The tokens before a failure begin a phrase.** -/
theorem exists_phrase_of_outcome_formula {s : List Token} {gauge : Nat} {e : Failure}
    (h : outcome (formula s) gauge = .error e) :
    ∃ ts us, s = ts ++ e.rest ∧ Phrase 6 (ts ++ us) := by
  obtain ⟨ts, k, w, hs, hts, -⟩ | ⟨-, -, ts, k, x, hs, hts, -⟩ :=
    stopped_or_trailing_of_outcome_formula h
  · obtain ⟨us, hus⟩ := hts.exists_phrase
    exact ⟨ts, us, hs, hus⟩
  · exact ⟨ts, [], hs, by simpa using hts.phrase⟩

/-- A phrase is not refused by the grammar. -/
theorem Phrase.not_isGrammatical {s : List Token} (h : Phrase 6 s) {gauge : Nat} {e : Failure}
    (he : outcome (formula s) gauge = .error e) : ¬ e.cause.IsGrammatical := by
  obtain ⟨f, hf⟩ | ⟨e', he', hlimit⟩ := outcome_formula_of_phrase h gauge
  · rw [hf] at he
    cases he
  · rw [he'] at he
    cases he
    exact hlimit.not_isGrammatical

/-- **What follows a token that the grammar refuses does not matter.** The reading comes to the
same place and refuses the token there, or one that is alike. -/
theorem outcome_formula_of_alike {ts rest : List Token} {t t' : Token} {gauge : Nat}
    {c : Failure.Cause} (h : outcome (formula (ts ++ t :: rest)) gauge = .error ⟨t :: rest, c⟩)
    (hc : c.IsGrammatical) (ht : t.Alike t') (us : List Token) :
    outcome (formula (ts ++ t' :: us)) gauge = .error ⟨t' :: us, c⟩ := by
  rw [outcome_formula, loosestLevel]
  obtain ⟨ts', k, w, hs, hts, hstop⟩ | ⟨hcause, hstops, ts', k, x, hs, hts, hk⟩ :=
    stopped_or_trailing_of_outcome_formula h
  · obtain rfl := List.append_cancel_right hs
    obtain ⟨hk, hrefuses⟩ | ⟨-, hdeep⟩ := hstop
    · obtain ⟨v, rfl⟩ | rfl := hc
      · cases hrefuses with
        | expected hadmits =>
            have hread := result_expression_of_awaits hts
              ((ht.admits_eq w).symm.trans (hadmits t rfl)) us gauge hk
            rw [List.nil_append] at hread
            rw [hread]
            rfl
      · cases hrefuses
    · cases hdeep
      obtain ⟨v, hv⟩ | hv := hc <;> cases hv
  · cases hcause
    obtain rfl := List.append_cancel_right hs
    have hnone : t'.infixLevel? = none :=
      ht.infixLevel?_eq ▸ stops_seven_iff.mp hstops t rfl
    have hstops' : Stops 7 (t' :: us) := stops_seven_iff.mpr (by simpa using hnone)
    have hread := result_expression_of_derives hts .formula (hstops'.mono (by decide)) gauge hk
    rw [hread, resumed_of_stops hstops']
    rfl

/-- **Where the grammar refuses a token, no phrase begins with the tokens up to it**, nor with
an alike token in its place: it would be refused as well. -/
theorem not_phrase_of_outcome_formula {ts rest : List Token} {t t' : Token} {gauge : Nat}
    {c : Failure.Cause} (h : outcome (formula (ts ++ t :: rest)) gauge = .error ⟨t :: rest, c⟩)
    (hc : c.IsGrammatical) (ht : t.Alike t') (us : List Token) : ¬ Phrase 6 (ts ++ t' :: us) :=
  fun hphrase => hphrase.not_isGrammatical (outcome_formula_of_alike h hc ht us) hc

end MissionTime.Syntax
