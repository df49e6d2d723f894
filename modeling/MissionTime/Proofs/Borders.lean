import MissionTime.Proofs.Places

/-!
# Borders between Tokens

A text can be divided where it is cut if no token goes across the cut. Then the first part is
divided as it is when it stands alone, and if it is divided to its end, the tokens of the second
part follow. There is such a border before every blank, for no token contains one, and behind every
character that is a token by itself and part of no other.

## Main definitions

* `Apart`: no token goes across the border of two texts.
* `Scan.followedBy`: the scan of a text with another text behind it.

## Main results

* `scan_append`: two texts that are apart are divided one after the other.
* `apart_of_isBlank`, `apart_of_standsAlone`: the borders.
-/

namespace MissionTime.Syntax

open Text

/-! ### Texts that are apart -/

/-- A token that is read, with a text behind what is left. -/
def behind (text : List Char) (read : Token × List Char) : Token × List Char :=
  (read.1, read.2 ++ text)

/-- Two texts are **apart** if from no place in the first one a token is read that it does not
contain. -/
def Apart (a b : List Char) : Prop :=
  ∀ y, y ≠ [] → y <:+ a → Token.read? (y ++ b) = (Token.read? y).map (behind b)

theorem Apart.of_suffix {a a' b : List Char} (h : Apart a b) (ha : a' <:+ a) : Apart a' b :=
  fun y hne hy => h y hne (hy.trans ha)

/-- A token is read as without the text behind it, if every token that begins the whole begins the
first part, and the second part prolongs no numeral. -/
theorem Token.read?_append {y b : List Char}
    (hbegins : ∀ t : Token, t.spelling <+: y ++ b → t.spelling <+: y)
    (hnumeral : ∀ t : Token, t.spelling = y → t.isNumeral = true →
      ∀ c ∈ b.head?, c.isDigit = false) :
    Token.read? (y ++ b) = (Token.read? y).map (behind b) := by
  rcases hread : Token.read? y with _ | ⟨t, rest⟩
  · have hnone := Token.read?_eq_none_iff.mp hread
    exact Token.read?_eq_none_iff.mpr fun t ht => hnone t (hbegins t ht)
  · have hspelling := Token.spelling_append_of_read? hread
    rw [← hspelling] at hread ⊢
    rw [List.append_assoc, Option.map_some, behind]
    refine (t.read?_spelling_append_iff (rest ++ b)).mpr fun ht => ?_
    rcases rest with _ | ⟨c, cs⟩
    · exact hnumeral t (by simpa using hspelling) ht
    · exact (t.read?_spelling_append_iff (c :: cs)).mp hread ht

/-! ### Blanks as borders -/

/-- There are no blanks in a token. -/
theorem Token.isBlank_eq_false_of_mem (t : Token) : ∀ c ∈ t.spelling, isBlank c = false := by
  have of_all {text : List Char} (h : (text.all fun c => !isBlank c) = true) :
      ∀ c ∈ text, isBlank c = false := fun c hc => by simpa using List.all_eq_true.mp h c hc
  cases t with
  | constant value => cases value <;> exact of_all (by decide)
  | «variable» id =>
      intro c hc
      rcases List.mem_cons.mp hc with rfl | hc
      · rfl
      · exact isBlank_of_isDigit (id.isDigit_of_mem c hc)
  | number n => exact fun c hc => isBlank_of_isDigit (n.isDigit_of_mem c hc)
  | connective op => cases op <;> exact of_all (by decide)
  | unary op => cases op <;> exact of_all (by decide)
  | binary op => cases op <;> exact of_all (by decide)
  | _ => exact of_all (by decide)

/-- **Before a blank there is a border.** -/
theorem apart_of_isBlank {b : List Char} {c : Char} (hb : b.head? = some c)
    (hc : isBlank c = true) (a : List Char) : Apart a b := by
  obtain ⟨cs, rfl⟩ := List.head?_eq_some_iff.mp hb
  intro y _ _
  refine Token.read?_append ?_ ?_
  · rintro t ⟨rest, ht⟩
    obtain ⟨m, rfl, -⟩ | ⟨m, hm, hcs⟩ := List.append_eq_append_iff.mp ht
    · exact List.prefix_append _ _
    · rcases m with _ | ⟨d, ds⟩
      · exact ⟨[], by simp [hm]⟩
      · obtain ⟨rfl, -⟩ := List.cons.inj hcs
        have hmem : c ∈ t.spelling := by simp [hm]
        rw [t.isBlank_eq_false_of_mem c hmem] at hc
        cases hc
  · rintro t - - d hd
    obtain rfl : c = d := Option.some.inj hd
    rcases hdigit : c.isDigit with _ | _
    · rfl
    · rw [isBlank_of_isDigit hdigit] at hc
      cases hc

/-! ### Characters that stand alone -/

/-- A character **stands alone** if it is no digit and no token contains it but the one that is
spelled by it. -/
structure StandsAlone (c : Char) : Prop where
  isDigit_eq_false : c.isDigit = false
  spelling_eq : ∀ t : Token, c ∈ t.spelling → t.spelling = [c]

theorem Token.mem_fixed {t : Token} (h : t.isNumeral = false) : t ∈ Token.fixed := by
  cases t with
  | constant value => cases value <;> decide
  | «variable» id => cases h
  | number n => cases h
  | connective op => cases op <;> decide
  | unary op => cases op <;> decide
  | binary op => cases op <;> decide
  | _ => decide

/-- A character that is in no numeral stands alone if it does so among the fixed spellings. -/
theorem standsAlone_of_fixed {c : Char} (hdigit : c.isDigit = false) (hp : c ≠ 'p')
    (h : ∀ t ∈ Token.fixed, c ∈ t.spelling → t.spelling = [c]) : StandsAlone c := by
  refine ⟨hdigit, fun t ht => ?_⟩
  have not_mem_digits (n : Numeral) : c ∉ n.digits := fun hc => by
    rw [n.isDigit_of_mem c hc] at hdigit
    cases hdigit
  rcases hnumeral : t.isNumeral with _ | _
  · exact h t (Token.mem_fixed hnumeral) ht
  · cases t with
    | «variable» id =>
        rcases List.mem_cons.mp ht with rfl | hc
        · exact absurd rfl hp
        · exact absurd hc (not_mem_digits id)
    | number n => exact absurd ht (not_mem_digits n)
    | _ => cases hnumeral

/-- What is spelled by a single character that is no digit is no numeral. -/
theorem Token.isNumeral_eq_false {t : Token} {c : Char} (ht : t.spelling = [c])
    (hc : c.isDigit = false) : t.isNumeral = false := by
  cases t with
  | «variable» id =>
      obtain ⟨-, hnil⟩ := List.cons.inj ht
      exact absurd hnil id.digits_ne_nil
  | number n =>
      have hn : n.digits = [c] := ht
      rw [n.isDigit_of_mem c (by simp [hn])] at hc
      cases hc
  | _ => rfl

/-- **Behind a character that stands alone there is a border.** -/
theorem apart_of_standsAlone {a : List Char} {c : Char} (ha : a.getLast? = some c)
    (hc : StandsAlone c) (b : List Char) : Apart a b := by
  rintro y hne ⟨a', rfl⟩
  have hmem : c ∈ y := by
    rw [List.getLast?_append_of_ne_nil _ hne] at ha
    exact List.mem_of_getLast? ha
  refine Token.read?_append ?_ ?_
  · rintro t ⟨rest, ht⟩
    obtain ⟨m, rfl, -⟩ | ⟨m, hm, -⟩ := List.append_eq_append_iff.mp ht
    · exact List.prefix_append _ _
    · -- The token contains the character, and so it is all of `y`.
      have hone : y ++ m = [c] := hm ▸ hc.spelling_eq t (by simp [hm, hmem])
      obtain ⟨rfl, -⟩ | ⟨-, rfl⟩ := List.append_eq_singleton_iff.mp hone
      · exact absurd rfl hne
      · exact ⟨[], by simp [hm]⟩
  · rintro t rfl hnumeral
    rw [Token.isNumeral_eq_false (hc.spelling_eq t hmem) hc.isDigit_eq_false] at hnumeral
    cases hnumeral

/-! ### Texts one behind the other -/

/-- The scan of a text with another text behind it, if the two are apart. -/
def Scan.followedBy (s : Scan) (text : List Char) : Scan :=
  let lexemes := s.lexemes.map fun lexeme => ⟨lexeme.token, lexeme.text ++ text⟩
  if s.tail = [] then ⟨lexemes ++ (scan text).lexemes, (scan text).tail⟩
  else ⟨lexemes, s.tail ++ text⟩

theorem Scan.followedBy_cons (lexeme : Lexeme) (s : Scan) (text : List Char) :
    (Scan.mk (lexeme :: s.lexemes) s.tail).followedBy text =
      ⟨⟨lexeme.token, lexeme.text ++ text⟩ :: (s.followedBy text).lexemes,
        (s.followedBy text).tail⟩ := by
  simp only [followedBy, List.map_cons]
  split <;> rfl

/-- A text that is not divided to its end is not so either with another text behind it. -/
theorem Scan.tail_eq_nil_of_followedBy {s : Scan} {text : List Char}
    (h : (s.followedBy text).tail = []) : s.tail = [] := by
  by_contra htail
  rw [followedBy, if_neg htail] at h
  exact htail (List.append_eq_nil_iff.mp h).1

theorem Scan.tokens_followedBy {s : Scan} (hs : s.tail = []) (text : List Char) :
    (s.followedBy text).tokens = s.tokens ++ (scan text).tokens := by
  rw [followedBy, if_pos hs]
  simp [tokens]

/-- **Texts that are apart** are divided one after the other. Induction on the length of the first
one. -/
theorem scan_append {a b : List Char} (h : Apart a b) :
    scan (a ++ b) = (scan a).followedBy b := by
  induction hlength : a.length using Nat.strongRecOn generalizing a with
  | ind length ih =>
      obtain ⟨blanks, hblanks, htext⟩ := exists_blanks_append_skipBlanks a
      have hsuffix : skipBlanks a <:+ a := List.dropWhile_suffix isBlank
      rcases hskip : skipBlanks a with _ | ⟨c, cs⟩
      · have hscan : scan a = ⟨[], []⟩ := by
          rw [scan_of_read?_eq_none (by rw [hskip]; rfl), hskip]
        rw [hskip, List.append_nil] at htext
        rw [hscan, htext, scan_blanks_append hblanks]
        rfl
      have hne : skipBlanks a ≠ [] := by simp [hskip]
      have hskip' : skipBlanks (a ++ b) = skipBlanks a ++ b := by
        rw [skipBlanks, List.dropWhile_append]
        exact if_neg (by simpa [skipBlanks] using hne)
      have happart := h (skipBlanks a) hne hsuffix
      rcases hread : Token.read? (skipBlanks a) with _ | ⟨t, rest⟩
      · rw [hread, ← hskip'] at happart
        rw [scan_of_read?_eq_none hread, scan_of_read?_eq_none happart, hskip', Scan.followedBy,
          if_neg hne]
        rfl
      · rw [hread, ← hskip'] at happart
        have hrest : rest <:+ a :=
          (Token.spelling_append_of_read? hread ▸ List.suffix_append _ _).trans hsuffix
        have hlt : rest.length < length :=
          hlength ▸ Nat.lt_of_lt_of_le (Token.length_lt_of_read? hread) (length_skipBlanks_le a)
        rw [scan_of_read? hread, scan_of_read? happart, hskip', Scan.followedBy_cons,
          ← ih _ hlt (h.of_suffix hrest) rfl]

/-- What a scan has at the last tokens does not depend on the ones before. -/
theorem textBefore_lexemes_append (lexemes : List Lexeme) (s : Scan) {n : Nat}
    (hn : n ≤ s.tokens.length) :
    (Scan.mk (lexemes ++ s.lexemes) s.tail).textBefore n = s.textBefore n := by
  induction lexemes with
  | nil => rfl
  | cons lexeme lexemes ih =>
      have hle : n ≤ (Scan.mk (lexemes ++ s.lexemes) s.tail).tokens.length := by
        simp only [Scan.tokens, List.map_append, List.length_append, List.length_map] at hn ⊢
        omega
      exact (textBefore_cons lexeme ⟨lexemes ++ s.lexemes, s.tail⟩ hle).trans ih

/-- From the first token of the second text on, the texts are as without the first one. -/
theorem Scan.textBefore_followedBy {s : Scan} (hs : s.tail = []) (text : List Char) :
    (s.followedBy text).textBefore (scan text).tokens.length = skipBlanks text := by
  rw [followedBy, if_pos hs, ← textBefore_length]
  exact textBefore_lexemes_append _ _ (Nat.le_refl _)

end MissionTime.Syntax
