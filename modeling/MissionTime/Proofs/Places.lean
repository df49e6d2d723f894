import MissionTime.Proofs.Refusal
import MissionTime.Proofs.RoundTrip

/-!
# Places in Texts

A scanner that has taken some tokens stands at a place in the text. What is before the place
spells the tokens. What is behind it has an influence on them only by its first character,
which could extend a numeral: where the text is changed from the place on and still goes on with
that character, the scanner comes to the same place with the same tokens.

So what holds of the tokens up to a place holds of the text up to there.

## Main definitions

* `Passes`: the tokens, the text before a place and the text from the place on.
* `Viable`: the beginnings of texts of the language.

## Main results

* `exists_passes`: wherever a scan is divided, there is a place.
* `inLanguage_iff`: the texts of the language are those that are divided into a phrase.
* `Token.exists_read?_alike`: whatever follows a token, an alike one is read there.
* `Token.read?_eq_none_iff`: no token is read exactly where none begins.
-/

namespace MissionTime.Syntax

open Text

/-! ### Tokens before other texts -/

/-- A token that is read is read before every text that begins like what followed it. -/
theorem Token.read?_congr {t : Token} {rest rest' : List Char}
    (h : Token.read? (t.spelling ++ rest) = some (t, rest)) (hhead : rest'.head? = rest.head?) :
    Token.read? (t.spelling ++ rest') = some (t, rest') := by
  rw [Token.read?_spelling_append_iff] at h ⊢
  rwa [hhead]

/-- **Whatever follows a token, an alike one is read there.** -/
theorem Token.exists_read?_alike (t : Token) (text : List Char) :
    ∃ t' rest, Token.read? (t.spelling ++ text) = some (t', rest) ∧ t.Alike t' := by
  have hfixed (h : t.isNumeral = false) :
      ∃ t' rest, Token.read? (t.spelling ++ text) = some (t', rest) ∧ t.Alike t' :=
    ⟨t, text, (t.read?_spelling_append_iff text).mpr (by simp [h]), .refl t⟩
  cases t with
  | «variable» id =>
      obtain ⟨n, rest, hn⟩ := id.exists_read?_append text
      refine ⟨.variable n, rest, ?_, .variable id n⟩
      rw [Token.spelling, List.cons_append, Token.read?_variable, hn]
      rfl
  | number m =>
      obtain ⟨n, rest, hn⟩ := m.exists_read?_append text
      refine ⟨.number n, rest, ?_, .number m n⟩
      rw [Token.spelling, Token.read?_number, hn]
      rfl
  | _ => exact hfixed rfl

/-- No token is read exactly where none begins. -/
theorem Token.read?_eq_none_iff {text : List Char} :
    Token.read? text = none ↔ ∀ t : Token, ¬ t.spelling <+: text := by
  constructor
  · rintro hnone t ⟨rest, rfl⟩
    obtain ⟨t', rest', hread, -⟩ := t.exists_read?_alike rest
    rw [hnone] at hread
    cases hread
  · intro hall
    rcases hread : Token.read? text with _ | ⟨t, rest⟩
    · rfl
    · exact absurd ⟨rest, Token.spelling_append_of_read? hread⟩ (hall t)

/-- No digit is white space. -/
theorem isWhiteSpace_of_isDigit {c : Char} (h : c.isDigit = true) : isWhiteSpace c = false := by
  obtain ⟨hfirst, hlast⟩ : 48 ≤ c.val.toNat ∧ c.val.toNat ≤ 57 := by
    simpa [Char.isDigit, UInt32.le_iff_toNat_le] using h
  simp only [isWhiteSpace, covered, whiteSpaceRanges, CodeRange.contains, List.any_cons,
    List.any_nil, Bool.or_false, Bool.or_eq_false_iff, Bool.and_eq_false_iff,
    decide_eq_false_iff_not, UInt32.le_iff_toNat_le, UInt32.toNat_ofNat]
  omega

/-- Blanks that are skipped are white space, which would be skipped as well. -/
theorem skipWhiteSpace_skipBlanks (text : List Char) :
    skipWhiteSpace (skipBlanks text) = skipWhiteSpace text := by
  obtain ⟨blanks, hblanks, htext⟩ := exists_blanks_append_skipBlanks text
  have hspace : ∀ c ∈ blanks, isWhiteSpace c = true := fun c hc =>
    isWhiteSpace_of_isBlank (hblanks c hc)
  calc skipWhiteSpace (skipBlanks text)
      = skipWhiteSpace (blanks ++ skipBlanks text) := (List.dropWhile_append_of_pos hspace).symm
    _ = skipWhiteSpace text := by rw [← htext]

/-- No token begins with white space. -/
theorem Token.exists_spelling_eq_cons_visible (t : Token) :
    ∃ c cs, t.spelling = c :: cs ∧ isWhiteSpace c = false := by
  cases t with
  | constant value => cases value <;> exact ⟨_, _, rfl, by decide⟩
  | number n =>
      obtain ⟨c, cs, hn⟩ := List.exists_cons_of_ne_nil n.digits_ne_nil
      exact ⟨c, cs, hn, isWhiteSpace_of_isDigit (n.isDigit_of_mem c (by simp [hn]))⟩
  | connective op => cases op <;> exact ⟨_, _, rfl, by decide⟩
  | unary op => cases op <;> exact ⟨_, _, rfl, by decide⟩
  | binary op => cases op <;> exact ⟨_, _, rfl, by decide⟩
  | _ => exact ⟨_, _, rfl, by decide⟩

/-- No token is read where white space comes. -/
theorem Token.read?_eq_none_of_isWhiteSpace {c : Char} (hc : isWhiteSpace c = true)
    (text : List Char) : Token.read? (c :: text) = none := by
  rcases hread : Token.read? (c :: text) with _ | ⟨t, rest⟩
  · rfl
  · obtain ⟨d, ds, hd, hvisible⟩ := t.exists_spelling_eq_cons_visible
    have hspelling := Token.spelling_append_of_read? hread
    rw [hd] at hspelling
    obtain rfl := List.head_eq_of_cons_eq hspelling
    rw [hc] at hvisible
    cases hvisible

/-! ### Scans of changed texts -/

/-- A scan takes the token that is read where it begins. -/
theorem scan_of_token {t : Token} {text rest : List Char}
    (h : Token.read? text = some (t, rest)) :
    scan text = ⟨⟨t, text⟩ :: (scan rest).lexemes, (scan rest).tail⟩ := by
  have hskip : skipBlanks text = text := by
    rw [← Token.spelling_append_of_read? h]
    exact skipBlanks_eq_self (t.isBlank_eq_false_of_head? rest)
  have hread : Token.read? (skipBlanks text) = some (t, rest) := by rwa [hskip]
  rw [scan_of_read? hread, hskip]

/-- Blanks before a text change nothing about its tokens. -/
theorem scan_blanks_append {blanks : List Char} (h : ∀ c ∈ blanks, isBlank c = true)
    (text : List Char) : scan (blanks ++ text) = scan text := by
  have hskip : skipBlanks (blanks ++ text) = skipBlanks text := List.dropWhile_append_of_pos h
  rcases hread : Token.read? (skipBlanks text) with _ | ⟨t, rest⟩
  · rw [scan_of_read?_eq_none hread, scan_of_read?_eq_none (hskip ▸ hread), hskip]
  · rw [scan_of_read? hread, scan_of_read? (hskip ▸ hread), hskip]

/-- **Places.** Where a text begins with `before` and goes on like `place`, the scanner takes
the tokens `ts` from `before` and goes on with what is behind. -/
structure Passes (ts : List Token) (before place : List Char) : Prop where
  spells : Spells ts before
  not_isBlank : ∀ c ∈ place.head?, isBlank c = false
  tokens_eq : ∀ other : List Char, other.head? = place.head? →
    (scan (before ++ other)).tokens = ts ++ (scan other).tokens
  tail_eq : ∀ other : List Char, other.head? = place.head? →
    (scan (before ++ other)).tail = (scan other).tail

/-- Before the first token there are only blanks. -/
theorem Passes.nil {blanks place : List Char} (h : ∀ c ∈ blanks, isBlank c = true)
    (hplace : ∀ c ∈ place.head?, isBlank c = false) : Passes [] blanks place where
  spells := .nil (forall_blank_iff.mpr h)
  not_isBlank := hplace
  tokens_eq other _ := by rw [scan_blanks_append h, List.nil_append]
  tail_eq other _ := by rw [scan_blanks_append h]

/-- A token that is read is followed by a place if what comes after it is. -/
theorem Passes.cons {t : Token} {ts : List Token} {blanks before place : List Char}
    (h : ∀ c ∈ blanks, isBlank c = true)
    (hread : Token.read? (t.spelling ++ (before ++ place)) = some (t, before ++ place))
    (hplace : Passes ts before place) :
    Passes (t :: ts) (blanks ++ (t.spelling ++ before)) place := by
  have hscan (other : List Char) (hother : other.head? = place.head?) :
      scan (blanks ++ (t.spelling ++ before) ++ other) =
        ⟨⟨t, t.spelling ++ (before ++ other)⟩ :: (scan (before ++ other)).lexemes,
          (scan (before ++ other)).tail⟩ := by
    have hhead : (before ++ other).head? = (before ++ place).head? := by
      rw [List.head?_append, List.head?_append, hother]
    rw [List.append_assoc, List.append_assoc, scan_blanks_append h,
      scan_of_token (Token.read?_congr hread hhead)]
  refine ⟨.cons (forall_blank_iff.mpr h) t.word_spelling hplace.spells, hplace.not_isBlank,
    fun other hother => ?_, fun other hother => ?_⟩
  · rw [hscan other hother]
    exact congrArg (t :: ·) (hplace.tokens_eq other hother)
  · rw [hscan other hother]
    exact hplace.tail_eq other hother

/-- From the first of its tokens on, a scan has the text without the blanks before it. -/
theorem textBefore_length (text : List Char) :
    (scan text).textBefore (scan text).tokens.length = skipBlanks text := by
  rcases hread : Token.read? (skipBlanks text) with _ | ⟨t, rest⟩
  · rw [scan_of_read?_eq_none hread]
    rfl
  · rw [scan_of_read? hread]
    simp [Scan.textBefore, Scan.tokens]

/-- What a scan has at the last tokens does not depend on the first one. -/
theorem textBefore_cons (lexeme : Lexeme) (s : Scan) {n : Nat} (hn : n ≤ s.tokens.length) :
    (Scan.mk (lexeme :: s.lexemes) s.tail).textBefore n = s.textBefore n := by
  rw [Scan.tokens, List.length_map] at hn
  have hdrop : (lexeme :: s.lexemes).drop (s.lexemes.length + 1 - n) =
      s.lexemes.drop (s.lexemes.length - n) := by
    rw [Nat.sub_add_comm hn, List.drop_succ_cons]
  simp only [Scan.textBefore, List.length_cons, hdrop]

/-- **Wherever a scan is divided, there is a place.** Induction on the tokens before it. -/
theorem exists_passes {ts rest : List Token} {text : List Char}
    (h : (scan text).tokens = ts ++ rest) :
    ∃ before, text = before ++ (scan text).textBefore rest.length ∧
      Passes ts before ((scan text).textBefore rest.length) := by
  induction ts generalizing text with
  | nil =>
      obtain ⟨blanks, hblanks, htext⟩ := exists_blanks_append_skipBlanks text
      have hplace : (scan text).textBefore rest.length = skipBlanks text := by
        rw [← textBefore_length, h, List.nil_append]
      rw [hplace]
      exact ⟨blanks, htext, .nil hblanks (eq_false_of_mem_head?_dropWhile isBlank text)⟩
  | cons t ts ih =>
      obtain ⟨blanks, hblanks, htext⟩ := exists_blanks_append_skipBlanks text
      rcases hread : Token.read? (skipBlanks text) with _ | ⟨t', text'⟩
      · rw [scan_of_read?_eq_none hread] at h
        cases h
      have hscan := scan_of_read? hread
      rw [hscan] at h
      obtain ⟨rfl, htokens⟩ : t' = t ∧ (scan text').tokens = ts ++ rest := List.cons.inj h
      obtain ⟨before, htext', hplace⟩ := ih htokens
      have hlast : (scan text).textBefore rest.length = (scan text').textBefore rest.length := by
        rw [hscan]
        refine textBefore_cons _ (scan text') ?_
        rw [htokens, List.length_append]
        exact Nat.le_add_left _ _
      have hspelling := Token.spelling_append_of_read? hread
      rw [← hspelling] at htext hread
      rw [hlast]
      refine ⟨blanks ++ (t'.spelling ++ before), ?_, .cons hblanks ?_ hplace⟩
      · rw [List.append_assoc, List.append_assoc, ← htext', ← htext]
      · rwa [← htext']

/-- Where the first token is known and no blank comes, the token is read. -/
theorem exists_read?_of_tokens {t : Token} {rest : List Token} {text : List Char}
    (h : (scan text).tokens = t :: rest) (hblank : ∀ c ∈ text.head?, isBlank c = false) :
    ∃ text', Token.read? text = some (t, text') := by
  have hskip := skipBlanks_eq_self hblank
  rcases hread : Token.read? (skipBlanks text) with _ | ⟨t', text'⟩
  · rw [scan_of_read?_eq_none hread] at h
    cases h
  · rw [scan_of_read? hread] at h
    obtain ⟨rfl, -⟩ := List.cons.inj h
    exact ⟨text', hskip ▸ hread⟩

/-- Where the first token is known and no blank comes, the text begins with the token. -/
theorem exists_spelling_append_of_tokens {t : Token} {rest : List Token} {text : List Char}
    (h : (scan text).tokens = t :: rest) (hblank : ∀ c ∈ text.head?, isBlank c = false) :
    ∃ text', text = t.spelling ++ text' := by
  obtain ⟨text', hread⟩ := exists_read?_of_tokens h hblank
  exact ⟨text', (Token.spelling_append_of_read? hread).symm⟩

/-! ### Texts of the language -/

/-- **The texts of the language** are those that are divided to their end, and into a phrase. -/
theorem inLanguage_iff {text : List Char} :
    InLanguage text ↔ (scan text).tail = [] ∧ Phrase 6 (scan text).tokens := by
  constructor
  · rintro ⟨ts, hspells, hphrase⟩
    obtain ⟨rfl, htail⟩ := scan_of_spells hspells hphrase.separable.isChain
    exact ⟨htail, hphrase⟩
  · rintro ⟨htail, hphrase⟩
    exact ⟨_, spells_of_scan htail, hphrase⟩

/-- **Viable** texts are those with which some text of the language begins. -/
def Viable (text : List Char) : Prop :=
  ∃ rest, InLanguage (text ++ rest)

/-- The text before a place is viable if the tokens before it begin a phrase. -/
theorem Passes.viable {ts us : List Token} {before place : List Char}
    (h : Passes ts before place) (hphrase : Phrase 6 (ts ++ us)) : Viable before :=
  ⟨spellTokens us, ts ++ us, h.spells.append (spells_spellTokens us), hphrase⟩

/-- The text up to a token is not viable if the tokens up to it, or up to an alike token, begin
no phrase. -/
theorem Passes.not_viable_of_token {ts : List Token} {before place : List Char}
    (h : Passes ts before place) {t : Token} (ht : ∃ text, place = t.spelling ++ text)
    (hrefused : ∀ t', t.Alike t' → ∀ us, ¬ Phrase 6 (ts ++ t' :: us)) :
    ¬ Viable (before ++ t.spelling) := by
  rintro ⟨rest, hlanguage⟩
  obtain ⟨text, rfl⟩ := ht
  obtain ⟨t', rest', hread, halike⟩ := t.exists_read?_alike rest
  obtain ⟨c, cs, hc⟩ := List.exists_cons_of_ne_nil t.spelling_ne_nil
  have htokens := h.tokens_eq (t.spelling ++ rest) (by simp [hc])
  rw [scan_of_token hread] at htokens
  obtain ⟨-, hphrase⟩ := inLanguage_iff.mp hlanguage
  rw [List.append_assoc, htokens] at hphrase
  exact hrefused t' halike _ hphrase

/-- A text is not viable beyond white space at a place, unless it is a blank. -/
theorem Passes.not_viable_of_isWhiteSpace {ts : List Token} {before place : List Char}
    (h : Passes ts before place) {c : Char} (hc : place.head? = some c)
    (hspace : isWhiteSpace c = true) (rest : List Char) : ¬ Viable (before ++ c :: rest) := by
  rintro ⟨rest', hlanguage⟩
  have hskip : skipBlanks (c :: (rest ++ rest')) = c :: (rest ++ rest') :=
    skipBlanks_eq_self (by simpa using h.not_isBlank c hc)
  have hread := Token.read?_eq_none_of_isWhiteSpace hspace (rest ++ rest')
  rw [← hskip] at hread
  obtain ⟨htail, -⟩ := inLanguage_iff.mp hlanguage
  rw [List.append_assoc, List.cons_append, h.tail_eq (c :: (rest ++ rest')) hc.symm,
    scan_of_read?_eq_none hread, hskip] at htail
  cases htail

end MissionTime.Syntax
