import MissionTime.Proofs.ErrorPosition

/-!
# What Stands at an Error

The class of an error is decided twice. The readings refuse a token for a reason of their own, and
afterwards the text from the place on is looked at again, without the white space before it, to say
what stands there. This module shows that the two views agree. Each reason has a shape, and at the
offset of an error the text has the shape of its reason: two bounds that are not in order in
brackets, a `p` without a number, a number that is out of range, no token at all, or the token that
is named in words.

The token named is the longest with which the text begins. It is the one that is read there, and
only numerals can be prolonged.

## Main definitions

* `ParseError.Reason.Fits`: the texts that can stand at an error with a given reason.
* `ParseError.Reason.Names`: the reasons that name what was found.

## Main results

* `Token.length_spelling_le`: the token that is read is the longest.
* `fits_of_parse_eq_error`: the reason of an error fits the text at its offset.
* `parse_error_classified`: the three classes of errors.
-/

namespace MissionTime

open Text Syntax

/-! ### The longest token -/

/-- No numeral is read where no digit comes. -/
theorem Text.Numeral.isDigit_eq_false_of_read?_eq_none {text : List Char}
    (h : Numeral.read? text = none) : ∀ c ∈ text.head?, c.isDigit = false := by
  intro c hc
  obtain ⟨rest, rfl⟩ := List.head?_eq_some_iff.mp hc
  rcases hdigit : c.isDigit with _ | _
  · rfl
  · have htake : (c :: rest).takeWhile Char.isDigit ≠ [] := by
      rw [List.takeWhile_cons_of_pos hdigit]
      exact List.cons_ne_nil _ _
    rw [Numeral.read?, dif_neg htake] at h
    cases h

/-- A numeral that is read has at least the digits of every numeral that begins the text. -/
theorem Text.Numeral.length_digits_le {m n : Numeral} {text rest : List Char}
    (h : Numeral.read? (m.digits ++ text) = some (n, rest)) :
    m.digits.length ≤ n.digits.length := by
  have hn : n.digits = (m.digits ++ text).takeWhile Char.isDigit := by
    unfold Numeral.read? at h
    split at h
    · cases h
    · cases h
      rfl
  rw [hn, List.takeWhile_append_of_pos m.isDigit_of_mem, List.length_append]
  exact Nat.le_add_right _ _

namespace Syntax.Token

/-- **The token that is read is the longest** of those that begin the text. -/
theorem length_spelling_le {t u : Token} {text rest : List Char}
    (h : read? text = some (t, rest)) (hu : u.spelling <+: text) :
    u.spelling.length ≤ t.spelling.length := by
  obtain ⟨rest', rfl⟩ := hu
  obtain ⟨t', rest'', hread, halike⟩ := u.exists_read?_alike rest'
  obtain ⟨rfl, rfl⟩ : t = t' ∧ rest = rest'' := by simpa using h.symm.trans hread
  rcases halike with _ | ⟨m, n⟩ | ⟨m, n⟩
  · exact Nat.le_refl _
  · rw [spelling, List.cons_append, read?_variable] at hread
    obtain ⟨⟨n', r⟩, hn, hpair⟩ := Option.map_eq_some_iff.mp hread
    cases hpair
    exact Nat.succ_le_succ (Numeral.length_digits_le hn)
  · rw [spelling, read?_number] at hread
    obtain ⟨⟨n', r⟩, hn, hpair⟩ := Option.map_eq_some_iff.mp hread
    cases hpair
    exact Numeral.length_digits_le hn

/-- A token that is read is not followed by a digit if it ends in a numeral. -/
theorem isDigit_eq_false_of_read? {t : Token} {text rest : List Char}
    (h : read? text = some (t, rest)) (ht : t.isNumeral = true) :
    ∀ c ∈ rest.head?, c.isDigit = false := by
  refine (t.read?_spelling_append_iff rest).mp ?_ ht
  rwa [spelling_append_of_read? h]

/-- There is no white space before a token. -/
theorem skipWhiteSpace_of_read? {t : Token} {text rest : List Char}
    (h : read? text = some (t, rest)) : skipWhiteSpace text = text := by
  obtain ⟨c, cs, hc, hvisible⟩ := t.exists_spelling_eq_cons_visible
  rw [← spelling_append_of_read? h, hc]
  exact List.dropWhile_cons_of_neg (by simp [hvisible])

end Syntax.Token

/-- A text that spells tokens and does not begin with a blank begins with the first of them. -/
theorem Syntax.Spells.exists_append {t : Token} {ts : List Token} {text rest : List Char}
    (h : Spells (t :: ts) text) (hblank : ∀ c ∈ (text ++ rest).head?, isBlank c = false) :
    ∃ text', text = t.spelling ++ text' ∧ Spells ts text' := by
  obtain _ | @⟨_, _, blanks, word, text', hblanks, hword, htext⟩ := h
  obtain rfl := word_iff.mp hword
  obtain _ | ⟨c, cs⟩ := blanks
  · exact ⟨text', rfl, htext⟩
  · have hc := blank_iff.mp (hblanks c List.mem_cons_self)
    rw [hblank c rfl] at hc
    cases hc

/-! ### Reasons and texts -/

namespace ParseError

/-- **Reasons fit texts.** For each reason, the texts that can stand where the error is. -/
inductive Reason.Fits : Reason → List Char → Prop
  | unknownWord {c : Char} {rest : List Char} (hread : Token.read? (c :: rest) = none)
      (hc : c.isAlphanum = true) :
      Fits (.unknownWord ((c :: rest).takeWhile fun d => d.isAlphanum || d == '_')) (c :: rest)
  | unknownCharacter {c : Char} {rest : List Char} (hread : Token.read? (c :: rest) = none)
      (hc : c.isAlphanum = false) : Fits (.unknownCharacter c) (c :: rest)
  | missingId {rest : List Char} (hrest : ∀ c ∈ rest.head?, c.isDigit = false) :
      Fits .missingId ('p' :: rest)
  | variableTooLarge {id : Numeral} {rest : List Char} (hid : UInt32.size ≤ id.value)
      (hrest : ∀ c ∈ rest.head?, c.isDigit = false) :
      Fits (.variableTooLarge id) ('p' :: (id.digits ++ rest))
  | integerTooLarge {n : Numeral} {rest : List Char} (hn : UInt64.size ≤ n.value)
      (hrest : ∀ c ∈ rest.head?, c.isDigit = false) :
      Fits (.integerTooLarge n) (n.digits ++ rest)
  | expected {what : Expectation} {found? : Option Token} {text : List Char}
      (hfound : found text = .ok found?) : Fits (.expected what found?) text
  | unexpected {found? : Option Token} {text : List Char} (hfound : found text = .ok found?) :
      Fits (.unexpected found?) text
  | tooDeep {text : List Char} : Fits .tooDeep text
  | bounds {error : BoundsError} {m n : Numeral} {before rest : List Char}
      (hm : m.value = error.lower.toNat) (hn : n.value = error.upper.toNat)
      (hlt : error.upper < error.lower)
      (hspells : Spells [.number m, .comma, .number n, .closeBracket] before) :
      Fits (.bounds error) ('[' :: (before ++ rest))

/-- The reason why no token is found fits the text. -/
theorem fits_of_found_eq_error {text : List Char} {reason : Reason}
    (h : found text = .error reason) : reason.Fits text := by
  unfold found at h
  split at h
  · cases h
  · cases h
  · rename_i c rest hread
    split at h
    · rename_i hc
      cases h
      exact .unknownWord hread hc
    · rename_i hc
      cases h
      exact .unknownCharacter hread (by simpa using hc)

/-- A reason that tells what is found fits the text, if it does so where something is found. -/
theorem fits_described {describe : Option Token → Reason} {text : List Char}
    (h : ∀ found?, found text = .ok found? → (describe found?).Fits text) :
    (match found text with
      | .ok token => describe token
      | .error reason => reason).Fits text := by
  rcases hfound : found text with reason | found?
  · exact fits_of_found_eq_error hfound
  · exact h found? hfound

/-- Where no variable is read behind a `p`, no digit comes. -/
theorem fits_missingId {text : List Char} (hp : text.head? = some 'p')
    (hread : Token.read? text = none) :
    skipWhiteSpace text = text ∧ Reason.missingId.Fits text := by
  obtain ⟨rest, rfl⟩ := List.head?_eq_some_iff.mp hp
  rw [Token.read?_variable, Option.map_eq_none_iff] at hread
  exact ⟨List.dropWhile_cons_of_neg (by decide),
    .missingId (Numeral.isDigit_eq_false_of_read?_eq_none hread)⟩

/-- The tokens of an interval with bounds out of order are spelled from its bracket on. -/
theorem fits_bounds {error : BoundsError} {m n : Numeral} {tokens : List Token}
    {place : List Char}
    (hrest : (scan place).tokens =
      .openBracket :: .number m :: .comma :: .number n :: .closeBracket :: tokens)
    (hplace : ∀ c ∈ place.head?, isBlank c = false) (hm : m.value = error.lower.toNat)
    (hn : n.value = error.upper.toNat) (hlt : error.upper < error.lower) :
    (Reason.bounds error).Fits place := by
  have hsplit : (scan place).tokens =
      [.openBracket, .number m, .comma, .number n, .closeBracket] ++ tokens := hrest
  obtain ⟨before, htext, hpasses⟩ := exists_passes hsplit
  rw [htext] at hplace ⊢
  obtain ⟨before', rfl, hspells⟩ := hpasses.spells.exists_append hplace
  exact .bounds hm hn hlt hspells

/-- **A diagnosis fits the text** that is looked at, if the tokens that begin at the place are
those that were refused. -/
theorem fits_diagnose {failure : Failure} {place : List Char}
    (hrest : (scan place).tokens = failure.rest) (hplace : ∀ c ∈ place.head?, isBlank c = false)
    (hcause : (∃ w, Refuses w failure.rest failure.cause) ∨ failure.cause = .trailing ∨
      failure.cause = .tooDeep) :
    (diagnose failure.cause place (skipWhiteSpace place)).Fits (skipWhiteSpace place) := by
  obtain ⟨rest, cause⟩ := failure
  obtain ⟨w, hrefuses⟩ | rfl | rfl := hcause
  · rcases hrefuses with _ | ⟨-, hid⟩ | ⟨-, hn⟩ | ⟨hm, hn, hlt⟩
    · simp only [diagnose]
      split
      · rename_i hp
        obtain ⟨hskip, hfits⟩ := fits_missingId hp.2.1 hp.2.2
        rwa [hskip]
      · exact fits_described fun _ => .expected
    · obtain ⟨text, hread⟩ := exists_read?_of_tokens hrest hplace
      rw [Token.skipWhiteSpace_of_read? hread, ← Token.spelling_append_of_read? hread]
      exact .variableTooLarge (Nat.le_of_not_lt hid) (Token.isDigit_eq_false_of_read? hread rfl)
    · obtain ⟨text, hread⟩ := exists_read?_of_tokens hrest hplace
      rw [Token.skipWhiteSpace_of_read? hread, ← Token.spelling_append_of_read? hread]
      exact .integerTooLarge (Nat.le_of_not_lt hn) (Token.isDigit_eq_false_of_read? hread rfl)
    · obtain ⟨text, hread⟩ := exists_read?_of_tokens hrest hplace
      rw [Token.skipWhiteSpace_of_read? hread]
      exact fits_bounds hrest hplace hm hn (UInt64.not_le.mp hlt)
  · exact fits_described fun _ => .unexpected
  · exact .tooDeep

/-- A reason **names** what was found, in the words `found`. -/
def Reason.Names (reason : Reason) (found : String) : Prop :=
  reason.message = s!"unexpected {found}" ∨
    ∃ what : Expectation, reason.message = s!"expected {what.text}, found {found}"

/-- What is found is the end of the text or the longest token there. -/
theorem names_of_found {text : List Char} {found? : Option Token}
    (h : found text = .ok found?) {reason : Reason} (hreason : reason.Names (foundText found?)) :
    text = [] ∧ reason.Names "end of input" ∨
      ∃ (t : Token) (rest : List Char), Token.read? text = some (t, rest) ∧
        (∀ u : Token, u.spelling <+: text → u.spelling.length ≤ t.spelling.length) ∧
        reason.Names s!"'{String.ofList t.spelling}'" := by
  rcases found? with _ | t
  · exact Or.inl ⟨eq_nil_of_found h, hreason⟩
  · obtain ⟨rest, hread⟩ := read?_of_found h
    exact Or.inr ⟨t, rest, hread, fun u hu => Token.length_spelling_le hread hu, hreason⟩

end ParseError

/-! ### Errors of texts -/

/-- A text is refused at a place or because of its nesting, or its tokens are a formula and
something follows them. -/
theorem refuses_of_outcome_readText {text : List Char} {gauge : Nat} {e : Failure}
    (h : outcome (readText text) gauge = .error e) :
    (∃ w, Refuses w e.rest e.cause) ∨ e.cause = .trailing ∨ e.cause = .tooDeep := by
  obtain hformula | ⟨rfl, -⟩ := outcome_readText_eq_error h
  · obtain ⟨_, _, w, _, _, hstop⟩ | ⟨hcause, -⟩ := stopped_or_trailing_of_outcome_formula hformula
    · obtain ⟨-, hrefuses⟩ | ⟨-, hdeep⟩ := hstop
      · exact Or.inl ⟨w, hrefuses⟩
      · exact Or.inr (Or.inr hdeep)
    · exact Or.inr (Or.inl hcause)
  · exact Or.inr (Or.inl rfl)

/-- **The reason of an error fits the text at its offset.** -/
theorem fits_of_parse_eq_error {text : String} {e : ParseError} (h : parse text = .error e) :
    ∃ a b : List Char, text.toList = a ++ b ∧ e.offset = utf8Width a ∧ e.reason.Fits b := by
  rw [parse_eq] at h
  rcases hread : outcome (readText text.toList) 0 with failure | f
  swap
  · rw [hread] at h
    cases h
  rw [hread] at h
  cases h
  obtain ⟨ts, -, hts, -⟩ := exists_phrase_of_outcome_readText hread
  obtain ⟨before, htext, hpasses⟩ := exists_passes hts
  generalize hdef : (scan text.toList).textBefore failure.rest.length = place at htext hpasses
  have hrest : (scan place).tokens = failure.rest := by
    have htokens := hpasses.tokens_eq place rfl
    rw [← htext, hts] at htokens
    exact (List.append_cancel_left htokens).symm
  have hsplit : text.toList =
      before ++ place.takeWhile isWhiteSpace ++ skipWhiteSpace place := by
    rw [List.append_assoc, skipWhiteSpace, List.takeWhile_append_dropWhile]
    exact htext
  refine ⟨_, skipWhiteSpace place, hsplit, ?_, ?_⟩
  · simp only [ParseError.ofFailure, hdef]
    rw [hsplit, utf8Width_append, Nat.add_sub_cancel]
  · simp only [ParseError.ofFailure, hdef]
    exact ParseError.fits_diagnose hrest hpasses.not_isBlank (refuses_of_outcome_readText hread)

/-- **The classes of errors**, by the text that stands at the offset. Where bounds are not in
order, it begins with an opening bracket, and the first bound, a comma, the second bound and a
closing bracket are spelled behind it, with the bounds that are reported. At a lexical error there
is a `p` without a digit behind it, a variable or a number that is out of range, or text that
begins with no token. At a grammatical error other than that of a text nested too deeply, the
error names the end of the text or the token that is read there, which is the longest. -/
theorem parse_error_classified {text : String} {e : ParseError} (h : parse text = .error e) :
    ∃ a b : List Char, text.toList = a ++ b ∧ e.offset = utf8Width a ∧
      (e.category = .bounds →
        ∃ (error : BoundsError) (m n : Numeral) (before rest : List Char),
          e.reason = .bounds error ∧ b = '[' :: (before ++ rest) ∧
            Spells [.number m, .comma, .number n, .closeBracket] before ∧
            m.value = error.lower.toNat ∧ n.value = error.upper.toNat ∧
            error.upper < error.lower) ∧
      (e.category = .lexical → b ≠ [] ∧
        ((∃ rest, b = 'p' :: rest ∧ ∀ c ∈ rest.head?, c.isDigit = false) ∨
          (∃ (id : Numeral) (rest : List Char), b = 'p' :: (id.digits ++ rest) ∧
            (∀ c ∈ rest.head?, c.isDigit = false) ∧ UInt32.size ≤ id.value) ∨
          (∃ (n : Numeral) (rest : List Char), b = n.digits ++ rest ∧
            (∀ c ∈ rest.head?, c.isDigit = false) ∧ UInt64.size ≤ n.value) ∨
          ∀ t : Token, ¬ t.spelling <+: b)) ∧
      (e.category = .grammatical → e.reason = .tooDeep ∨
        b = [] ∧ e.reason.Names "end of input" ∨
        ∃ (t : Token) (rest : List Char), Token.read? b = some (t, rest) ∧
          (∀ u : Token, u.spelling <+: b → u.spelling.length ≤ t.spelling.length) ∧
          e.reason.Names s!"'{String.ofList t.spelling}'") := by
  obtain ⟨a, b, hsplit, hoffset, hfits⟩ := fits_of_parse_eq_error h
  obtain ⟨offset, reason⟩ := e
  refine ⟨a, b, hsplit, hoffset, ?_⟩
  cases hfits with
  | unknownWord hread _ =>
      have hnone := Token.read?_eq_none_iff.mp hread
      exact ⟨nofun, fun _ => ⟨List.cons_ne_nil _ _, Or.inr (Or.inr (Or.inr hnone))⟩, nofun⟩
  | unknownCharacter hread _ =>
      have hnone := Token.read?_eq_none_iff.mp hread
      exact ⟨nofun, fun _ => ⟨List.cons_ne_nil _ _, Or.inr (Or.inr (Or.inr hnone))⟩, nofun⟩
  | missingId hrest =>
      exact ⟨nofun, fun _ => ⟨List.cons_ne_nil _ _, Or.inl ⟨_, rfl, hrest⟩⟩, nofun⟩
  | @variableTooLarge id rest hid hrest =>
      refine ⟨nofun, fun _ => ⟨List.cons_ne_nil _ _, Or.inr (Or.inl ?_)⟩, nofun⟩
      exact ⟨id, rest, rfl, hrest, hid⟩
  | @integerTooLarge n rest hn hrest =>
      have hne := List.append_ne_nil_of_left_ne_nil n.digits_ne_nil rest
      refine ⟨nofun, fun _ => ⟨hne, Or.inr (Or.inr (Or.inl ?_))⟩, nofun⟩
      exact ⟨n, rest, rfl, hrest, hn⟩
  | expected hfound =>
      refine ⟨nofun, nofun, fun _ => Or.inr ?_⟩
      exact ParseError.names_of_found hfound (Or.inr ⟨_, rfl⟩)
  | unexpected hfound =>
      refine ⟨nofun, nofun, fun _ => Or.inr ?_⟩
      exact ParseError.names_of_found hfound (Or.inl rfl)
  | tooDeep => exact ⟨nofun, nofun, fun _ => Or.inl rfl⟩
  | @bounds error m n before rest hm hn hlt hspells =>
      refine ⟨fun _ => ?_, nofun, nofun⟩
      exact ⟨error, m, n, before, rest, rfl, rfl, hspells, hm, hn, hlt⟩

/-- An interval with blanks between its tokens and bounds that are not in order. -/
theorem parse_error_classified_bounds :
    parse "p0 U [ 3,\t02 ] $" = .error ⟨5, .bounds ⟨3, 2⟩⟩ ∧
      ∃ a b : List Char, "p0 U [ 3,\t02 ] $".toList = a ++ b ∧ 5 = utf8Width a ∧
        ∃ (error : BoundsError) (m n : Numeral) (before rest : List Char),
          ParseError.Reason.bounds ⟨3, 2⟩ = .bounds error ∧ b = '[' :: (before ++ rest) ∧
            Spells [.number m, .comma, .number n, .closeBracket] before ∧
            m.value = error.lower.toNat ∧ n.value = error.upper.toNat ∧
            error.upper < error.lower := by
  have herror : parse "p0 U [ 3,\t02 ] $" = .error ⟨5, .bounds ⟨3, 2⟩⟩ := by decide +kernel
  obtain ⟨a, b, hsplit, hoffset, hbounds, -⟩ := parse_error_classified herror
  exact ⟨herror, a, b, hsplit, hoffset, hbounds rfl⟩

end MissionTime
