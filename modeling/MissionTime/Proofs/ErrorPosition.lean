import MissionTime.Proofs.Acceptance
import MissionTime.Proofs.Places

/-!
# Where Errors Are

The offset of an error is where the problem is, and neither too late nor too early. What stands
before it, up to white space, is the beginning of a text of the language. And if the grammar is
what refuses the text, either the text ends there and is not of the language, or a token comes
there with which no text of the language goes on.

An offset is taken behind all white space, of which blanks are only a part. The rest of it
belongs to no text of the language, so that what comes behind it does not matter.

## Main results

* `exists_phrase_of_outcome_readText`: the tokens before a failure begin a phrase.
* `not_inLanguage_of_outcome_readText`: what the grammar refuses is not of the language.
* `parse_error_position`: where the offset of an error is.
-/

namespace MissionTime

open Text Syntax

/-! ### Failures to read a text -/

/-- The reading of a text fails as that of its tokens does, or where all its tokens are a formula
but do not reach to its end. -/
theorem outcome_readText_eq_error {text : List Char} {gauge : Nat} {e : Failure}
    (h : outcome (readText text) gauge = .error e) :
    outcome (formula (scan text).tokens) gauge = .error e ∨
      e = ⟨[], .trailing⟩ ∧ (scan text).tail ≠ [] ∧
        ∃ f, outcome (formula (scan text).tokens) gauge = .ok f := by
  rw [outcome_readText, bind_eq_error_iff] at h
  obtain hformula | ⟨f, hf, hdone⟩ := h
  · exact Or.inl hformula
  · split at hdone
    · cases hdone
    · rename_i htail
      cases hdone
      exact Or.inr ⟨rfl, htail, f, hf⟩

/-- **The tokens before a failure begin a phrase.** -/
theorem exists_phrase_of_outcome_readText {text : List Char} {gauge : Nat} {e : Failure}
    (h : outcome (readText text) gauge = .error e) :
    ∃ ts us, (scan text).tokens = ts ++ e.rest ∧ Phrase 6 (ts ++ us) := by
  obtain hformula | ⟨rfl, -, f, hf⟩ := outcome_readText_eq_error h
  · exact exists_phrase_of_outcome_formula hformula
  · obtain ⟨k, hderives, -⟩ := outcome_formula_eq_ok_iff.mp hf
    exact ⟨_, [], (List.append_nil _).symm, by simpa using hderives.phrase⟩

/-- **What the grammar refuses is not of the language.** -/
theorem not_inLanguage_of_outcome_readText {text : List Char} {gauge : Nat} {e : Failure}
    (h : outcome (readText text) gauge = .error e) (hc : e.cause.IsGrammatical) :
    ¬ InLanguage text := by
  intro hlanguage
  obtain ⟨hend, hphrase⟩ := inLanguage_iff.mp hlanguage
  obtain hformula | ⟨-, htail, -⟩ := outcome_readText_eq_error h
  · exact hphrase.not_isGrammatical hformula hc
  · exact htail hend

/-- No phrase begins with the tokens up to one that the grammar refuses. -/
theorem not_phrase_of_outcome_readText {text : List Char} {gauge : Nat} {ts rest : List Token}
    {t t' : Token} {c : Failure.Cause}
    (h : outcome (readText text) gauge = .error ⟨t :: rest, c⟩)
    (hts : (scan text).tokens = ts ++ t :: rest) (hc : c.IsGrammatical) (ht : t.Alike t')
    (us : List Token) : ¬ Phrase 6 (ts ++ t' :: us) := by
  obtain hformula | ⟨hend, -⟩ := outcome_readText_eq_error h
  · rw [hts] at hformula
    exact not_phrase_of_outcome_formula hformula hc ht us
  · cases hend

/-! ### What is found at an offset -/

namespace ParseError

/-- What is found is no token only at the end of a text. -/
theorem eq_nil_of_found {text : List Char} (h : found text = .ok none) : text = [] := by
  unfold found at h
  split at h
  · cases h
  · rfl
  · split at h <;> cases h

/-- A token that is found is read. -/
theorem read?_of_found {text : List Char} {t : Token} (h : found text = .ok (some t)) :
    ∃ rest, Token.read? text = some (t, rest) := by
  unfold found at h
  split at h
  · rename_i rest hread
    cases h
    exact ⟨rest, hread⟩
  · cases h
  · split at h <;> cases h

/-- Where no token is found, the error is a lexical one. -/
theorem category_of_found {text : List Char} {reason : Reason} (h : found text = .error reason)
    (offset : Nat) : category ⟨offset, reason⟩ = .lexical := by
  unfold found at h
  split at h
  · cases h
  · cases h
  · split at h <;> cases h <;> rfl

/-- **A grammatical error**, other than that of a text nested too deeply, comes of a failure for
which the grammar refuses what it finds. -/
theorem isGrammatical_of_diagnose {cause : Failure.Cause} {place visible : List Char}
    {offset : Nat} (h : category ⟨offset, diagnose cause place visible⟩ = .grammatical)
    (hdeep : diagnose cause place visible ≠ .tooDeep) :
    cause.IsGrammatical ∧ ∃ token, found visible = .ok token := by
  have hc : cause.IsGrammatical := by
    cases cause with
    | expected what => exact Or.inl ⟨what, rfl⟩
    | trailing => exact Or.inr rfl
    | variableTooLarge id => cases h
    | integerTooLarge value => cases h
    | bounds error => cases h
    | tooDeep => exact absurd rfl hdeep
  refine ⟨hc, ?_⟩
  rcases hfound : found visible with reason | token
  · have hlexical := category_of_found hfound offset
    rcases hc with ⟨what, rfl⟩ | rfl
    · simp only [diagnose, hfound] at h
      split at h
      · cases h
      · cases hlexical.symm.trans h
    · simp only [diagnose, hfound] at h
      cases hlexical.symm.trans h
  · exact ⟨token, rfl⟩

end ParseError

/-! ### The position of an error -/

/-- **What the grammar refuses at a place** is the end of the text or a token, with white space
before it only if that is refused already. -/
theorem refused_at_place {text before place : List Char} {ts : List Token} {gauge : Nat}
    {e : Failure} (h : outcome (readText text) gauge = .error e) (hc : e.cause.IsGrammatical)
    (hts : (scan text).tokens = ts ++ e.rest) (hplace : Passes ts before place)
    (hrest : (scan place).tokens = e.rest) {found? : Option Token}
    (hfound : ParseError.found (skipWhiteSpace place) = .ok found?) :
    skipWhiteSpace place = [] ∧ ¬ InLanguage text ∨
      ∃ (t : Token) (rest : List Char), skipWhiteSpace place = t.spelling ++ rest ∧
        ¬ Viable (before ++ place.takeWhile isWhiteSpace ++ t.spelling) := by
  obtain ⟨tokens, c⟩ := e
  cases tokens with
  | cons t tokens =>
      -- The token comes at the place itself.
      obtain ⟨rest, rfl⟩ := exists_spelling_append_of_tokens hrest hplace.not_isBlank
      obtain ⟨d, ds, hd, hvisible⟩ := t.exists_spelling_eq_cons_visible
      have hspace : (t.spelling ++ rest).takeWhile isWhiteSpace = [] := by
        rw [hd]
        exact List.takeWhile_cons_of_neg (by simp [hvisible])
      have hskip : skipWhiteSpace (t.spelling ++ rest) = t.spelling ++ rest := by
        rw [hd]
        exact List.dropWhile_cons_of_neg (by simp [hvisible])
      refine Or.inr ⟨t, rest, hskip, ?_⟩
      rw [hspace, List.append_nil]
      exact hplace.not_viable_of_token ⟨rest, rfl⟩
        fun t' ht us => not_phrase_of_outcome_readText h hts hc ht us
  | nil =>
      -- No token comes at the place, so if one is found, it is behind white space.
      rcases found? with _ | t
      · exact Or.inl ⟨ParseError.eq_nil_of_found hfound,
          not_inLanguage_of_outcome_readText h hc⟩
      obtain ⟨rest, hread⟩ := ParseError.read?_of_found hfound
      refine Or.inr ⟨t, rest, (Token.spelling_append_of_read? hread).symm, ?_⟩
      have hsplit : place.takeWhile isWhiteSpace ++ skipWhiteSpace place = place :=
        List.takeWhile_append_dropWhile
      rcases hw : place.takeWhile isWhiteSpace with _ | ⟨d, w⟩
      · rw [hw, List.nil_append] at hsplit
        rw [hsplit] at hread
        rw [scan_of_token hread] at hrest
        cases hrest
      · have hspace : isWhiteSpace d = true :=
          List.all_eq_true.mp List.all_takeWhile d (hw ▸ List.mem_cons_self)
        have hhead : place.head? = some d := by
          rw [← hsplit, hw]
          rfl
        rw [List.append_assoc, List.cons_append]
        exact hplace.not_viable_of_isWhiteSpace hhead hspace (w ++ t.spelling)

/-- **The position of an error.** The text before the offset is, up to white space, the
beginning of a text of the language. If the error is a grammatical one, and not that of a text
nested too deeply, then either the text ends at the offset and is not of the language, or a token
stands there up to which the text is the beginning of none of the language. -/
theorem parse_error_position {text : String} {e : ParseError} (h : parse text = .error e) :
    ∃ a w b : List Char, text.toList = a ++ w ++ b ∧ e.offset = utf8Width (a ++ w) ∧
      (∀ c ∈ w, isWhiteSpace c = true) ∧ (∀ c ∈ b.head?, isWhiteSpace c = false) ∧ Viable a ∧
      (e.category = .grammatical → e.reason ≠ .tooDeep →
        b = [] ∧ ¬ InLanguage text.toList ∨
          ∃ (t : Token) (rest : List Char), b = t.spelling ++ rest ∧
            ¬ Viable (a ++ w ++ t.spelling)) := by
  rw [parse_eq] at h
  rcases hread : outcome (readText text.toList) 0 with failure | f
  swap
  · rw [hread] at h
    cases h
  rw [hread] at h
  cases h
  obtain ⟨ts, us, hts, hphrase⟩ := exists_phrase_of_outcome_readText hread
  obtain ⟨before, htext, hplace⟩ := exists_passes hts
  generalize hdef : (scan text.toList).textBefore failure.rest.length = place at htext hplace
  have hrest : (scan place).tokens = failure.rest := by
    have htokens := hplace.tokens_eq place rfl
    rw [← htext, hts] at htokens
    exact (List.append_cancel_left htokens).symm
  have hsplit : text.toList =
      before ++ place.takeWhile isWhiteSpace ++ skipWhiteSpace place := by
    rw [List.append_assoc, skipWhiteSpace, List.takeWhile_append_dropWhile]
    exact htext
  refine ⟨before, place.takeWhile isWhiteSpace, skipWhiteSpace place, hsplit, ?_,
    List.all_eq_true.mp List.all_takeWhile, eq_false_of_mem_head?_dropWhile isWhiteSpace place,
    hplace.viable hphrase, fun hcategory hdeep => ?_⟩
  · simp only [ParseError.ofFailure, hdef]
    rw [hsplit, utf8Width_append, Nat.add_sub_cancel]
  · simp only [ParseError.ofFailure, hdef] at hcategory hdeep
    obtain ⟨hc, found?, hfound⟩ := ParseError.isGrammatical_of_diagnose hcategory hdeep
    exact refused_at_place hread hc hts hplace hrest hfound

/-- Behind `p0` and a blank stands a character that is white space but no blank, and then a
parenthesis, at which the error is. -/
theorem parse_error_position_behind_white_space :
    parse "p0 \u00a0)" = .error ⟨5, .unexpected (some .closeParen)⟩ ∧
      ∃ a w b : List Char, "p0 \u00a0)".toList = a ++ w ++ b ∧ 5 = utf8Width (a ++ w) ∧
        (∀ c ∈ w, isWhiteSpace c = true) ∧ (∀ c ∈ b.head?, isWhiteSpace c = false) ∧ Viable a ∧
        (b = [] ∧ ¬ InLanguage "p0 \u00a0)".toList ∨
          ∃ (t : Token) (rest : List Char), b = t.spelling ++ rest ∧
            ¬ Viable (a ++ w ++ t.spelling)) := by
  have herror : parse "p0 \u00a0)" = .error ⟨5, .unexpected (some .closeParen)⟩ := by
    decide +kernel
  obtain ⟨a, w, b, hsplit, hoffset, hw, hb, ha, hrefused⟩ := parse_error_position herror
  exact ⟨herror, a, w, b, hsplit, hoffset, hw, hb, ha, hrefused rfl (by decide)⟩

end MissionTime
