import MissionTime.Proofs.Acceptance
import MissionTime.Proofs.Borders
import MissionTime.Proofs.RoundTrip

/-!
# Levels of Nesting

Where a text is nested too deeply is decided by what stands before that place. A unary expression
has the level one more than the one that it is directly a part of, and the first one beyond the
limit is refused where it begins, before anything of it is read. What is complete before that
place, such as the operands of a chain, has given its levels back.

A derivation with levels keeps with each token the level of the unary expression that begins with
it. The tokens before a place and their levels are the first part of such a derivation, and this
is all that the reading up to the place depends on.

## Main definitions

* `Levelled`: a token with the level of the unary expression that it begins.
* `Levels`: the grammar of expressions, with levels.
* `FillsLevels`: texts behind which the first unary expression beyond the limit begins.

## Main results

* `exists_levels_iff`: the expressions with levels are those that are derived.
* `Levels.result_expression`: the first unary expression beyond the limit is refused.
* `parse_of_fillsLevels`: whatever follows a text that fills the levels is refused as too deep.
-/

namespace MissionTime

open Text Syntax

namespace Syntax

/-! ### Derivations with levels -/

/-- A token, and the level of the unary expression that begins with it, if one does. -/
structure Levelled where
  token : Token
  level? : Option Nat

/-- A token with which no unary expression begins. -/
def Levelled.plain (t : Token) : Levelled :=
  ⟨t, none⟩

/-- **Levels.** `Levels n d us` says that the tokens of `us` are an expression of level `n` of the
grammar that is part of `d` unary expressions, and that the levels of its own unary expressions
are those of `us`. -/
inductive Levels : Nat → Nat → List Levelled → Prop
  | constant (d : Nat) (value : Bool) : Levels 0 d [⟨.constant value, some (d + 1)⟩]
  | variable (d : Nat) {id : Numeral} (hid : id.value < UInt32.size) :
      Levels 0 d [⟨.variable id, some (d + 1)⟩]
  | negation {d : Nat} {us : List Levelled} (hx : Levels 0 (d + 1) us) :
      Levels 0 d (⟨.negation, some (d + 1)⟩ :: us)
  | unary {d : Nat} {op : UnaryTemporal} {is : List Token} {I : Interval} {us : List Levelled}
      (hI : DerivesInterval is I) (hx : Levels 0 (d + 1) us) :
      Levels 0 d (⟨.unary op, some (d + 1)⟩ :: (is.map .plain ++ us))
  | parens {d : Nat} {us : List Levelled} (hx : Levels 6 (d + 1) us) :
      Levels 0 d (⟨.openParen, some (d + 1)⟩ :: (us ++ [.plain .closeParen]))
  | single {n d : Nat} {us : List Levelled} (hx : Levels n d us) : Levels (n + 1) d us
  | chain {n d : Nat} {us vs : List Levelled} {os : List Token} {op : InfixOperator}
      (hl : Levels (n + 1) d us) (hop : DerivesInfix (n + 1) os op) (hr : Levels n d vs) :
      Levels (n + 1) d (us ++ (os.map .plain ++ vs))

/-- No level is beyond the limit. -/
def Within (limit : Nat) (us : List Levelled) : Prop :=
  ∀ u ∈ us, ∀ l ∈ u.level?, l ≤ limit

instance (limit : Nat) (us : List Levelled) : Decidable (Within limit us) :=
  inferInstanceAs (Decidable (∀ u ∈ us, ∀ l ∈ u.level?, l ≤ limit))

@[simp]
theorem within_nil (limit : Nat) : Within limit [] := by
  simp [Within]

@[simp]
theorem within_cons {limit l : Nat} {t : Token} {us : List Levelled} :
    Within limit (⟨t, some l⟩ :: us) ↔ l ≤ limit ∧ Within limit us := by
  simp [Within]

@[simp]
theorem within_append {limit : Nat} {us vs : List Levelled} :
    Within limit (us ++ vs) ↔ Within limit us ∧ Within limit vs :=
  List.forall_mem_append

@[simp]
theorem within_map_plain (limit : Nat) (ts : List Token) : Within limit (ts.map .plain) := by
  simp [Within, Levelled.plain]

@[simp]
theorem within_plain (limit : Nat) (t : Token) : Within limit [.plain t] :=
  within_map_plain limit [t]

@[simp]
theorem token_plain (t : Token) : (Levelled.plain t).token = t :=
  rfl

@[simp]
theorem token_comp_plain : Levelled.token ∘ Levelled.plain = id :=
  rfl

theorem map_token_plain_append (ts : List Token) (us : List Levelled) (rest : List Token) :
    (ts.map Levelled.plain ++ us).map Levelled.token ++ rest =
      ts ++ (us.map Levelled.token ++ rest) := by
  simp

/-- **An expression with levels is derived**, and the nesting of its derivation leads to the
greatest of the levels. -/
theorem Levels.derives {n d : Nat} {us : List Levelled} (h : Levels n d us) :
    ∃ k f, Derives n k (us.map Levelled.token) f ∧ ∀ limit, Within limit us ↔ d + k ≤ limit := by
  induction h with
  | constant d value => exact ⟨1, _, .constant value, by simp⟩
  | @«variable» d id hid =>
      exact ⟨1, .var (.ofNatLT id.value hid), .variable (by simp), by simp⟩
  | negation _ ih =>
      obtain ⟨k, f, hf, hle⟩ := ih
      refine ⟨k + 1, _, .negation hf, fun limit => ?_⟩
      rw [within_cons, hle]
      omega
  | unary hI _ ih =>
      obtain ⟨k, f, hf, hle⟩ := ih
      refine ⟨k + 1, _, by simpa using Derives.unary hI hf, fun limit => ?_⟩
      rw [within_cons, within_append, hle]
      simp only [within_map_plain, true_and]
      omega
  | parens _ ih =>
      obtain ⟨k, f, hf, hle⟩ := ih
      refine ⟨k + 1, f, by simpa using Derives.parens hf, fun limit => ?_⟩
      rw [within_cons, within_append, hle]
      simp only [within_plain, and_true]
      omega
  | single _ ih =>
      obtain ⟨k, f, hf, hle⟩ := ih
      exact ⟨k, f, .single hf, hle⟩
  | chain _ hop _ ihl ihr =>
      obtain ⟨k, l, hl, hk⟩ := ihl
      obtain ⟨m, r, hr, hm⟩ := ihr
      refine ⟨max k m, _, by simpa using Derives.chain hl hop hr (joins_apply _ l r),
        fun limit => ?_⟩
      rw [within_append, within_append, hk, hm]
      simp only [within_map_plain, true_and]
      omega

/-- Negations in a row have one level each. -/
theorem Levels.negations {d : Nat} {us : List Levelled} (k : Nat) (h : Levels 0 (d + k) us) :
    Levels 0 d ((List.range' (d + 1) k).map (fun l => ⟨.negation, some l⟩) ++ us) := by
  induction k generalizing d with
  | zero => exact h
  | succ k ih =>
      have hnext : Levels 0 (d + 1 + k) us := by rwa [Nat.add_right_comm]
      exact .negation (ih hnext)

/-- What is derived has levels, wherever it stands. -/
theorem Derives.exists_levels {n k : Nat} {ts : List Token} {f : Formula} (h : Derives n k ts f)
    (d : Nat) : ∃ us, us.map Levelled.token = ts ∧ Levels n d us := by
  induction h generalizing d with
  | constant value => exact ⟨_, rfl, .constant d value⟩
  | @«variable» id i hid => exact ⟨_, rfl, .variable d (hid ▸ i.toNat_lt_size)⟩
  | negation _ ih =>
      obtain ⟨us, rfl, hus⟩ := ih (d + 1)
      exact ⟨_, rfl, .negation hus⟩
  | @unary k op is ts I x hI _ ih =>
      obtain ⟨us, rfl, hus⟩ := ih (d + 1)
      exact ⟨⟨.unary op, _⟩ :: (is.map .plain ++ us), by simp, .unary hI hus⟩
  | parens _ ih =>
      obtain ⟨us, rfl, hus⟩ := ih (d + 1)
      exact ⟨_, by simp, .parens hus⟩
  | single _ ih =>
      obtain ⟨us, rfl, hus⟩ := ih d
      exact ⟨us, rfl, .single hus⟩
  | chain _ hop _ _ ihl ihr =>
      obtain ⟨us, rfl, hus⟩ := ihl d
      obtain ⟨vs, rfl, hvs⟩ := ihr d
      exact ⟨_, by simp, .chain hus hop hvs⟩

/-- **The expressions with levels are those that are derived.** -/
theorem exists_levels_iff {n d : Nat} {ts : List Token} :
    (∃ us, us.map Levelled.token = ts ∧ Levels n d us) ↔ ∃ k f, Derives n k ts f := by
  constructor
  · rintro ⟨us, rfl, hus⟩
    obtain ⟨k, f, hf, -⟩ := hus.derives
    exact ⟨k, f, hf⟩
  · rintro ⟨k, f, hf⟩
    exact hf.exists_levels d

/-! ### Up to the first level beyond the limit -/

section FirstBeyond

variable {before after us vs : List Levelled} {t : Token} {m : Nat}

/-- A token with a level in two lists side by side is in the first or in the second one. -/
theorem append_eq_append_cons (h : us ++ vs = before ++ ⟨t, some m⟩ :: after) :
    (∃ after', us = before ++ ⟨t, some m⟩ :: after') ∨
      ∃ before', before = us ++ before' ∧ vs = before' ++ ⟨t, some m⟩ :: after := by
  rcases List.append_eq_append_iff.mp h with ⟨before', rfl, hvs⟩ | ⟨_ | ⟨u, after'⟩, rfl, hvs⟩
  · exact Or.inr ⟨before', rfl, hvs⟩
  · exact Or.inr ⟨[], by simp, by simpa using hvs.symm⟩
  · obtain ⟨rfl, -⟩ := List.cons.inj hvs
    exact Or.inl ⟨after', rfl⟩

/-- A token with a level is none of those without. -/
theorem map_plain_append_eq {is : List Token}
    (h : is.map .plain ++ vs = before ++ ⟨t, some m⟩ :: after) :
    ∃ before', before = is.map .plain ++ before' ∧ vs = before' ++ ⟨t, some m⟩ :: after := by
  rcases append_eq_append_cons h with ⟨after', his⟩ | hvs
  · have hmem : (⟨t, some m⟩ : Levelled) ∈ is.map .plain := by simp [his]
    obtain ⟨_, -, hplain⟩ := List.mem_map.mp hmem
    cases hplain
  · exact hvs

/-- The first unary expression beyond the limit is the whole one, which is refused, or it is inside
that one, for which there is a level left. -/
theorem result_expression_zero_of_first {d : Nat} {t₀ : Token} {what : Expectation}
    {rest : List Token} (h : ⟨t₀, some (d + 1)⟩ :: us = before ++ ⟨t, some m⟩ :: after)
    (hbefore : Within nestingLimit before) (hm : nestingLimit < m)
    (hinside : ∀ before', us = before' ++ ⟨t, some m⟩ :: after → Within nestingLimit before' →
      d < nestingLimit → result (unary what (t₀ :: (before'.map Levelled.token ++ rest))) d =
        .error ⟨rest, .tooDeep⟩) :
    result (expression 0 what (before.map Levelled.token ++ rest)) d = .error ⟨rest, .tooDeep⟩ := by
  rw [result_expression_zero]
  rcases before with _ | ⟨u, before'⟩
  · obtain ⟨hlevel, -⟩ := List.cons.inj h
    have hlimit : ¬ d < nestingLimit := by
      cases hlevel
      omega
    rw [result_unary, if_neg hlimit]
    rfl
  · obtain ⟨rfl, hus⟩ := List.cons.inj h
    obtain ⟨hlimit, hbefore'⟩ := within_cons.mp hbefore
    exact hinside before' hus hbefore' hlimit

/-- **The first unary expression beyond the limit** is refused where it begins, whatever comes
there. Induction on the derivation. In a chain, what stands before the operand is read by
completeness. -/
theorem Levels.result_expression {n d : Nat} (h : Levels n d us)
    (hus : us = before ++ ⟨t, some m⟩ :: after) (hbefore : Within nestingLimit before)
    (hm : nestingLimit < m) (what : Expectation) (rest : List Token) :
    result (expression n what (before.map Levelled.token ++ rest)) d =
      .error ⟨rest, .tooDeep⟩ := by
  induction h generalizing before after what with
  | constant d value =>
      exact result_expression_zero_of_first hus hbefore hm fun before' hnil => by simp at hnil
  | «variable» d hid =>
      exact result_expression_zero_of_first hus hbefore hm fun before' hnil => by simp at hnil
  | negation _ ih =>
      refine result_expression_zero_of_first hus hbefore hm fun before' hus' hbefore' hlimit => ?_
      have hx := ih hus' hbefore' .operand
      rw [result_expression_zero] at hx
      rw [result_unary, if_pos hlimit]
      simp only [hx]
      rfl
  | @unary d op is I us hI _ ih =>
      refine result_expression_zero_of_first hus hbefore hm fun before' hus' hbefore' hlimit => ?_
      obtain ⟨before'', rfl, hus''⟩ := map_plain_append_eq hus'
      have hinterval := result_interval_of_derives hI (before''.map Levelled.token ++ rest) (d + 1)
      have hx := ih hus'' (within_append.mp hbefore').2 .operand
      rw [result_expression_zero] at hx
      rw [map_token_plain_append, result_unary, if_pos hlimit]
      simp only [hinterval, Except.bind, hx]
  | parens _ ih =>
      refine result_expression_zero_of_first hus hbefore hm fun before' hus' hbefore' hlimit => ?_
      rcases append_eq_append_cons hus' with ⟨after', hus''⟩ | ⟨before'', -, hclose⟩
      · rw [result_unary, if_pos hlimit]
        simp only [loosestLevel, ih hus'' hbefore' .formula]
        rfl
      · have hmem : (⟨t, some m⟩ : Levelled) ∈ [Levelled.plain .closeParen] := by simp [hclose]
        cases List.mem_singleton.mp hmem
  | single _ ih =>
      rw [result_expression_succ, ih hus hbefore what]
      rfl
  | @chain n d us vs os op hl hop _ ihl ihr =>
      rcases append_eq_append_cons hus with ⟨after', hus'⟩ | ⟨before', rfl, hright⟩
      · exact ihl hus' hbefore what
      obtain ⟨before'', rfl, hvs⟩ := map_plain_append_eq hright
      obtain ⟨hleft, hbefore'⟩ := within_append.mp hbefore
      obtain ⟨k, l, hl, hk⟩ := hl.derives
      have hr := ihr hvs (within_append.mp hbefore').2 .operand
      have hread := result_expression_of_derives hl what
        (hop.stops (before''.map Levelled.token ++ rest)) d ((hk nestingLimit).mp hleft)
      have hnext := infixResult_of_derives hop (before''.map Levelled.token ++ rest) d
      rw [List.map_append, List.append_assoc, map_token_plain_append, hread, resumed,
        result_chain, hnext]
      simp only [Except.bind, hr]

end FirstBeyond

end Syntax

/-! ### Texts that fill the levels -/

/-- The variable `p0` as a unary expression of level 65, and closed parentheses behind it. -/
def lastVariable (n : Nat) : List Levelled :=
  ⟨.variable (.ofNat 0), some 65⟩ :: List.replicate n (.plain .closeParen)

/-- **Texts that fill the levels.** The text ends where a unary expression is to begin. If it is
completed by a variable there, and by the parentheses that are still to be closed, then it is of
the language without the limit, that variable has level 65, and no unary expression before it is
beyond level 64. -/
def FillsLevels (text : List Char) : Prop :=
  (∃ c ∈ text.getLast?, c = '~' ∨ c = '(' ∨ c = ']') ∧
    ∃ (n : Nat) (us : List Levelled),
      Spells ((us ++ lastVariable n).map Levelled.token)
        (text ++ ("p0".toList ++ List.replicate n ')')) ∧
      Levels 6 0 (us ++ lastVariable n) ∧ Within 64 us

/-- The three characters are tokens by themselves, and parts of no other. -/
theorem standsAlone_of_opening {c : Char} (h : c = '~' ∨ c = '(' ∨ c = ']') : StandsAlone c := by
  rcases h with rfl | rfl | rfl <;>
    exact standsAlone_of_fixed (by decide) (by decide) (by decide)

theorem FillsLevels.apart {text : List Char} (h : FillsLevels text) (rest : List Char) :
    Apart text rest := by
  obtain ⟨⟨c, hc, hopening⟩, -⟩ := h
  exact apart_of_standsAlone hc (standsAlone_of_opening hopening) rest

/-- The completion is spelled as it is written in `FillsLevels`. -/
theorem spells_lastVariable (n : Nat) :
    Spells ((lastVariable n).map Levelled.token) ("p0".toList ++ List.replicate n ')') := by
  have hclosing : (List.replicate n Token.closeParen).flatMap Token.spelling =
      List.replicate n ')' := by
    rw [List.flatMap_replicate]
    exact List.flatten_replicate_singleton
  have htext : spellTokens ((lastVariable n).map Levelled.token) =
      "p0".toList ++ List.replicate n ')' := by
    simp only [lastVariable, spellTokens, List.map_cons, List.map_replicate, List.flatMap_cons,
      token_plain, hclosing]
    rfl
  exact htext ▸ spells_spellTokens _

/-- A text that fills the levels is divided to its end, and its tokens lead to the first unary
expression beyond the limit. -/
theorem FillsLevels.exists_levels {text : List Char} (h : FillsLevels text) :
    (scan text).tail = [] ∧ ∃ us n, (scan text).tokens = us.map Levelled.token ∧
      Levels 6 0 (us ++ lastVariable n) ∧ Within nestingLimit us := by
  have hapart := h.apart
  obtain ⟨-, n, us, hspells, hlevels, hwithin⟩ := h
  obtain ⟨k, f, hf, -⟩ := hlevels.derives
  have hchain := hf.separable.isChain
  obtain ⟨htokens, htail⟩ := scan_of_spells hspells hchain
  rw [scan_append (hapart _)] at htokens htail
  have hend := Scan.tail_eq_nil_of_followedBy htail
  rw [List.map_append] at hchain
  obtain ⟨hlast, -⟩ := scan_of_spells (spells_lastVariable n) hchain.right_of_append
  rw [Scan.tokens_followedBy hend, hlast, List.map_append] at htokens
  exact ⟨hend, us, n, List.append_cancel_right htokens, hlevels, hwithin⟩

/-- **The limit on nesting is decided by what stands before.** Whatever follows a text that fills
the levels, the whole is refused as too deep, with the offset behind the text and any white space
that follows. -/
theorem parse_of_fillsLevels {q : String} (hq : FillsLevels q.toList) (z : String) :
    ∃ e, parse (q ++ z) = .error e ∧ e.category = .grammatical ∧
      e.reason.message = "formula nested too deeply, the limit is 64 levels" ∧
      e.offset = (q ++ z).utf8ByteSize - utf8Width (skipWhiteSpace z.toList) := by
  have hscan := scan_append (hq.apart z.toList)
  obtain ⟨hend, us, n, htokens, hlevels, hwithin⟩ := hq.exists_levels
  have hread := hlevels.result_expression rfl hwithin (by decide : 64 < 65) .formula
    (scan z.toList).tokens
  have houtcome : outcome (readText (q ++ z).toList) 0 =
      .error ⟨(scan z.toList).tokens, .tooDeep⟩ := by
    rw [outcome_readText, outcome_formula, String.toList_append, hscan,
      Scan.tokens_followedBy hend, htokens, loosestLevel, hread]
    rfl
  refine ⟨_, by rw [parse_eq, houtcome]; rfl, rfl, rfl, ?_⟩
  rw [ParseError.ofFailure, utf8ByteSize_eq_utf8Width, ← skipWhiteSpace_skipBlanks z.toList,
    ← Scan.textBefore_followedBy hend, ← hscan, String.toList_append]

/-- A text that is divided to its end into some tokens spells them. -/
theorem spells_of_scan_eq {ts : List Token} {text : List Char} (htail : (scan text).tail = [])
    (htokens : (scan text).tokens = ts) : Spells ts text :=
  htokens ▸ spells_of_scan htail

/-- A conjunction whose right operand is in parentheses, and in them 63 negations. The variable
on its left has given its level back. Behind it come white space and a parenthesis. -/
theorem parse_of_fillsLevels_conjunction :
    FillsLevels "p1 & (~~~~~~~~~~~~~~~~~~~~~~~~~~~~~~~~~~~~~~~~~~~~~~~~~~~~~~~~~~~~~~~".toList ∧
      ∃ e, parse ("p1 & (~~~~~~~~~~~~~~~~~~~~~~~~~~~~~~~~~~~~~~~~~~~~~~~~~~~~~~~~~~~~~~~" ++
          "\u00a0)") = .error e ∧ e.category = .grammatical ∧
        e.reason.message = "formula nested too deeply, the limit is 64 levels" ∧
        e.offset = 71 := by
  have hlevels : Levels 6 0
      (([⟨.variable (.ofNat 1), some 1⟩, .plain (.connective .and), ⟨.openParen, some 1⟩] ++
        (List.range' 2 63).map fun l => ⟨.negation, some l⟩) ++ lastVariable 1) := by
    have hvariable : Levels 0 64 [⟨.variable (.ofNat 0), some 65⟩] := .variable 64 (by decide)
    have hinner := (Levels.negations 63 hvariable).single.single.single.single.single.single
    have hleft : Levels 2 0 [⟨.variable (.ofNat 1), some 1⟩] :=
      (Levels.variable 0 (by decide)).single.single
    exact (hleft.chain .and (Levels.parens hinner).single).single.single.single.single
  have hq : FillsLevels
      "p1 & (~~~~~~~~~~~~~~~~~~~~~~~~~~~~~~~~~~~~~~~~~~~~~~~~~~~~~~~~~~~~~~~".toList := by
    refine ⟨⟨'~', by decide +kernel, Or.inl rfl⟩, 1, _, ?_, hlevels, by decide⟩
    exact spells_of_scan_eq (by decide +kernel) (by decide +kernel)
  refine ⟨hq, ?_⟩
  obtain ⟨e, he, hcategory, hmessage, hoffset⟩ := parse_of_fillsLevels hq "\u00a0)"
  exact ⟨e, he, hcategory, hmessage, hoffset.trans (by decide +kernel)⟩

end MissionTime
