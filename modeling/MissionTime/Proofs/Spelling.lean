import MissionTime.Proofs.Grammar

/-!
# Spelling and Scanning

The scanner takes the longest token at each place, while a text may spell any tokens. The two
agree where the tokens are separable: there is then no place at which a numeral that has ended
could be read on into the next token.

The only tokens that another character could extend are the numerals, and they are kept apart
by the first characters of what may follow: a blank, or a token that begins with no digit.

## Main results

* `blank_iff`, `word_iff`: the scanner has the blanks and the words of the grammar.
* `Token.read?_spelling_append_iff`: a spelled token is read back, unless a digit extends it.
* `scan_of_spells`: a text is divided into the tokens it spells.
* `spells_of_scan`: a text that is divided to its end spells its tokens.
-/

namespace MissionTime

open Text

namespace Text

/-- Every digit is a character of its own kind, not a blank. -/
theorem isBlank_of_isDigit {c : Char} (h : c.isDigit = true) : isBlank c = false := by
  rw [Bool.eq_false_iff]
  intro hblank
  simp only [isBlank, Bool.or_eq_true, beq_iff_eq] at hblank
  rcases hblank with ((rfl | rfl) | rfl) | rfl <;> revert h <;> decide

/-- Where the dropping of characters ends, one comes that is not to be dropped. -/
theorem eq_false_of_mem_head?_dropWhile (p : Char → Bool) (text : List Char) :
    ∀ c ∈ (text.dropWhile p).head?, p c = false := by
  intro c hc
  have hdrop := List.head?_dropWhile_not p text
  rw [hc] at hdrop
  exact hdrop

/-- Blanks before a character that is none are skipped, and nothing else. -/
theorem skipBlanks_append {blanks text : List Char} (h : ∀ c ∈ blanks, isBlank c = true)
    (htext : ∀ c ∈ text.head?, isBlank c = false) : skipBlanks (blanks ++ text) = text := by
  rw [skipBlanks, List.dropWhile_append_of_pos h]
  cases text with
  | nil => rfl
  | cons c cs => exact List.dropWhile_cons_of_neg (by simp [htext c rfl])

/-- Nothing is skipped where no blank comes. -/
theorem skipBlanks_eq_self {text : List Char} (h : ∀ c ∈ text.head?, isBlank c = false) :
    skipBlanks text = text :=
  skipBlanks_append (List.forall_mem_nil _) h

/-- What is skipped are blanks. -/
theorem exists_blanks_append_skipBlanks (text : List Char) :
    ∃ blanks, (∀ c ∈ blanks, isBlank c = true) ∧ text = blanks ++ skipBlanks text :=
  ⟨text.takeWhile isBlank, List.all_eq_true.mp List.all_takeWhile,
    List.takeWhile_append_dropWhile.symm⟩

/-- A numeral is read back before anything but a digit. -/
theorem Numeral.read?_append (n : Numeral) {rest : List Char}
    (h : ∀ c ∈ rest.head?, c.isDigit = false) :
    Numeral.read? (n.digits ++ rest) = some (n, rest) := by
  have hrest : rest.takeWhile Char.isDigit = [] ∧ rest.dropWhile Char.isDigit = rest := by
    cases rest with
    | nil => exact ⟨rfl, rfl⟩
    | cons c cs =>
        have hc := h c rfl
        exact ⟨List.takeWhile_cons_of_neg (by simp [hc]),
          List.dropWhile_cons_of_neg (by simp [hc])⟩
  have htake : (n.digits ++ rest).takeWhile Char.isDigit = n.digits := by
    rw [List.takeWhile_append_of_pos n.isDigit_of_mem, hrest.1, List.append_nil]
  have hdrop : (n.digits ++ rest).dropWhile Char.isDigit = rest := by
    rw [List.dropWhile_append_of_pos n.isDigit_of_mem, hrest.2]
  simp only [Numeral.read?, htake, hdrop, n.digits_ne_nil, ↓reduceDIte]

/-- What follows a numeral that is read begins with no digit. -/
theorem Numeral.isDigit_eq_false_of_read? {n : Numeral} {text rest : List Char}
    (h : Numeral.read? text = some (n, rest)) : ∀ c ∈ rest.head?, c.isDigit = false := by
  unfold Numeral.read? at h
  split at h
  · cases h
  · cases h
    exact eq_false_of_mem_head?_dropWhile Char.isDigit text

/-- A numeral is read at the beginning of a text that begins with one. It may be longer. -/
theorem Numeral.exists_read?_append (n : Numeral) (text : List Char) :
    ∃ m rest, Numeral.read? (n.digits ++ text) = some (m, rest) := by
  have htake : (n.digits ++ text).takeWhile Char.isDigit ≠ [] := by
    rw [List.takeWhile_append_of_pos n.isDigit_of_mem]
    exact List.append_ne_nil_of_left_ne_nil n.digits_ne_nil _
  exact ⟨_, _, dif_neg htake⟩

end Text

namespace Syntax

/-! ### Blanks and words -/

/-- **The scanner skips the blanks of the grammar.** -/
theorem blank_iff {c : Char} : Blank c ↔ isBlank c = true := by
  simp [Blank, isBlank, or_assoc]

theorem forall_blank_iff {blanks : List Char} :
    (∀ c ∈ blanks, Blank c) ↔ ∀ c ∈ blanks, isBlank c = true :=
  forall₂_congr fun _ _ => blank_iff

/-- **The spelling of a token is its word.** -/
theorem word_iff {t : Token} {word : List Char} : Word t word ↔ word = t.spelling := by
  constructor
  · intro h
    cases h <;> rfl
  · rintro rfl
    cases t with
    | constant value => cases value <;> constructor
    | connective op => cases op <;> constructor
    | unary op => cases op <;> constructor
    | binary op => cases op <;> constructor
    | _ => constructor

/-! ### Tokens and their first characters -/

namespace Token

/-- The spelling of a token is a word for it. -/
theorem word_spelling (t : Token) : Word t t.spelling :=
  word_iff.mpr rfl

/-- A token begins with no blank, and unless it is a number, with no digit. -/
theorem exists_spelling_eq_cons (t : Token) :
    ∃ c cs, t.spelling = c :: cs ∧ isBlank c = false ∧
      ((∀ n, t ≠ .number n) → c.isDigit = false) := by
  cases t with
  | constant value => cases value <;> exact ⟨_, _, rfl, by decide, fun _ => by decide⟩
  | number n =>
      obtain ⟨c, cs, hn⟩ := List.exists_cons_of_ne_nil n.digits_ne_nil
      have hc : c.isDigit = true := n.isDigit_of_mem c (by simp [hn])
      exact ⟨c, cs, hn, isBlank_of_isDigit hc, fun h => absurd rfl (h n)⟩
  | connective op => cases op <;> exact ⟨_, _, rfl, by decide, fun _ => by decide⟩
  | unary op => cases op <;> exact ⟨_, _, rfl, by decide, fun _ => by decide⟩
  | binary op => cases op <;> exact ⟨_, _, rfl, by decide, fun _ => by decide⟩
  | _ => exact ⟨_, _, rfl, by decide, fun _ => by decide⟩

/-- No blanks are skipped before a token. -/
theorem isBlank_eq_false_of_head? (t : Token) (text : List Char) :
    ∀ c ∈ (t.spelling ++ text).head?, isBlank c = false := by
  obtain ⟨d, ds, hd, hblank, -⟩ := t.exists_spelling_eq_cons
  rw [hd]
  simpa using hblank

/-- No fixed spelling begins like a variable or a number. -/
theorem readFixed?_eq_none {c : Char} (hc : c.isDigit = true ∨ c = 'p') (text : List Char) :
    readFixed? (c :: text) = none := by
  have hfixed : (fixed.all fun t => t.spelling.head?.all fun d => !(d.isDigit || d == 'p')) =
      true := by
    decide
  rw [readFixed?, Option.map_eq_none_iff, List.find?_eq_none]
  intro t ht hp
  obtain ⟨d, ds, hd, -⟩ := t.exists_spelling_eq_cons
  rw [hd, List.isPrefixOf_cons_cons, Bool.and_eq_true, beq_iff_eq] at hp
  obtain rfl := hp.1
  have ht := List.all_eq_true.mp hfixed t ht
  simp only [hd, List.head?_cons, Option.all_some, Bool.not_eq_true', Bool.or_eq_false_iff,
    beq_eq_false_iff_ne] at ht
  exact hc.elim (fun hdigit => Bool.noConfusion (ht.1.symm.trans hdigit)) ht.2

/-- A text that begins with `p` is read as a variable if a numeral follows. -/
theorem read?_variable (text : List Char) :
    read? ('p' :: text) = (Numeral.read? text).map fun (id, rest) => (.variable id, rest) := by
  rw [read?, readFixed?_eq_none (Or.inr rfl)]
  rfl

/-- A text that begins with a numeral is read as a number. -/
theorem read?_number (n : Numeral) (text : List Char) :
    read? (n.digits ++ text) =
      (Numeral.read? (n.digits ++ text)).map fun (value, rest) => (.number value, rest) := by
  obtain ⟨c, cs, hn⟩ := List.exists_cons_of_ne_nil n.digits_ne_nil
  have hc : c.isDigit = true := n.isDigit_of_mem c (by simp [hn])
  have hp : c ≠ 'p' := by
    rintro rfl
    revert hc
    decide
  rw [hn, List.cons_append, read?, readFixed?_eq_none (Or.inl hc), Option.orElse_eq_orElse,
    Option.orElse_none]
  unfold readNumeral?
  split
  · rename_i heq
    exact absurd (List.head_eq_of_cons_eq heq) hp
  · rfl

/-- The tokens that are spelled with a numeral at their end. -/
def isNumeral : Token → Bool
  | .variable _ | .number _ => true
  | _ => false

/-- **The longest token is read.** A spelled token is read back exactly if it does not end in a
numeral that the next character extends. -/
theorem read?_spelling_append_iff (t : Token) (rest : List Char) :
    read? (t.spelling ++ rest) = some (t, rest) ↔
      (t.isNumeral = true → ∀ c ∈ rest.head?, c.isDigit = false) := by
  have numeral_iff (n : Numeral) : Numeral.read? (n.digits ++ rest) = some (n, rest) ↔
      ∀ c ∈ rest.head?, c.isDigit = false :=
    ⟨Numeral.isDigit_eq_false_of_read?, Numeral.read?_append n⟩
  cases t with
  | constant value => cases value <;> exact iff_of_true rfl (by simp [isNumeral])
  | «variable» id =>
      rw [spelling, List.cons_append, read?_variable]
      simpa [isNumeral] using numeral_iff id
  | number n =>
      rw [spelling, read?_number]
      simpa [isNumeral] using numeral_iff n
  | connective op => cases op <;> exact iff_of_true rfl (by simp [isNumeral])
  | unary op => cases op <;> exact iff_of_true rfl (by simp [isNumeral])
  | binary op => cases op <;> exact iff_of_true rfl (by simp [isNumeral])
  | _ => exact iff_of_true rfl (by simp [isNumeral])

/-- **A spelled token is read back** if no digit follows it. After a bracket and after a comma
even a digit may. -/
theorem read?_spelling (t : Token) {rest : List Char}
    (h : t ≠ .openBracket → t ≠ .comma → ∀ c ∈ rest.head?, c.isDigit = false) :
    read? (t.spelling ++ rest) = some (t, rest) := by
  refine (t.read?_spelling_append_iff rest).mpr fun hnumeral => h ?_ ?_
  · rintro rfl
    cases hnumeral
  · rintro rfl
    cases hnumeral

end Token

/-! ### Scanned texts -/

/-- A scan ends where no token begins. -/
theorem scan_of_read?_eq_none {text : List Char} (h : Token.read? (skipBlanks text) = none) :
    scan text = ⟨[], skipBlanks text⟩ := by
  rw [scan]
  split
  · rfl
  · rename_i hread
    rw [h] at hread
    cases hread

/-- A scan takes the token that begins the text and goes on after it. -/
theorem scan_of_read? {text rest : List Char} {t : Token}
    (h : Token.read? (skipBlanks text) = some (t, rest)) :
    scan text = ⟨⟨t, skipBlanks text⟩ :: (scan rest).lexemes, (scan rest).tail⟩ := by
  rw [scan]
  split
  · rename_i hread
    rw [h] at hread
    cases hread
  · rename_i hread
    rw [h] at hread
    cases hread
    rfl

/-- Blanks may stand before a spelled text. -/
theorem Spells.blanks_append {ts : List Token} {text blanks : List Char}
    (hblanks : ∀ c ∈ blanks, Blank c) (h : Spells ts text) : Spells ts (blanks ++ text) := by
  cases h with
  | nil htext => exact .nil (List.forall_mem_append.mpr ⟨hblanks, htext⟩)
  | cons hbs hword htext =>
      rw [← List.append_assoc]
      exact .cons (List.forall_mem_append.mpr ⟨hblanks, hbs⟩) hword htext

/-- Spelled texts side by side spell the tokens of both. -/
theorem Spells.append {ts us : List Token} {a b : List Char} (ha : Spells ts a)
    (hb : Spells us b) : Spells (ts ++ us) (a ++ b) := by
  induction ha with
  | nil hblanks => exact hb.blanks_append hblanks
  | cons hblanks hword _ ih =>
      rw [List.append_assoc, List.append_assoc]
      exact .cons hblanks hword ih

/-- A spelled text begins with a digit only if its first token is a number. -/
theorem Spells.isDigit_eq_false {ts : List Token} {text : List Char} (h : Spells ts text)
    (hhead : ∀ n, ts.head? ≠ some (.number n)) : ∀ c ∈ text.head?, c.isDigit = false := by
  have not_isDigit : ∀ c, Blank c → c.isDigit = false := fun c hc =>
    Bool.eq_false_iff.mpr fun hdigit => by simp [blank_iff, isBlank_of_isDigit hdigit] at hc
  intro c hc
  cases h with
  | nil hblanks => exact not_isDigit c (hblanks c (List.mem_of_mem_head? hc))
  | @cons t ts blanks word text hblanks hword htext =>
      cases blanks with
      | nil =>
          obtain ⟨d, ds, hd, -, hdigit⟩ := t.exists_spelling_eq_cons
          rw [List.nil_append, word_iff.mp hword, hd] at hc
          cases hc
          exact hdigit fun n hn => hhead n (congrArg some hn)
      | cons b bs =>
          obtain rfl : b = c := Option.some.inj hc
          exact not_isDigit b (hblanks b List.mem_cons_self)

/-- **A text is divided into the tokens it spells**, if numbers among them stand only behind
brackets and commas. Induction on the spelling. -/
theorem scan_of_spells {ts : List Token} {text : List Char} (h : Spells ts text)
    (hts : ts.IsChain MayFollow) : (scan text).tokens = ts ∧ (scan text).tail = [] := by
  induction h with
  | @nil blanks hblanks =>
      have hskip : skipBlanks blanks = [] := by
        have htext : ∀ c ∈ ([] : List Char).head?, isBlank c = false := nofun
        simpa using skipBlanks_append (forall_blank_iff.mp hblanks) htext
      have hread : Token.read? (skipBlanks blanks) = none := by
        rw [hskip]
        rfl
      rw [scan_of_read?_eq_none hread]
      exact ⟨rfl, hskip⟩
  | @cons t ts blanks word text hblanks hword htext ih =>
      obtain rfl := word_iff.mp hword
      obtain ⟨htokens, htail⟩ := ih hts.tail
      have hskip : skipBlanks (blanks ++ (t.spelling ++ text)) = t.spelling ++ text :=
        skipBlanks_append (forall_blank_iff.mp hblanks) (t.isBlank_eq_false_of_head? text)
      have hread : Token.read? (skipBlanks (blanks ++ (t.spelling ++ text))) = some (t, text) := by
        rw [hskip]
        refine t.read?_spelling fun hbracket hcomma => htext.isDigit_eq_false fun n hn => ?_
        obtain ⟨us, rfl⟩ := List.head?_eq_some_iff.mp hn
        exact (hts.rel n rfl).elim hbracket hcomma
      rw [scan_of_read? hread]
      exact ⟨congrArg (t :: ·) htokens, htail⟩

/-- **A text that is divided to its end spells its tokens.** -/
theorem spells_of_scan {text : List Char} (h : (scan text).tail = []) :
    Spells (scan text).tokens text := by
  obtain ⟨blanks, hblanks, htext⟩ := exists_blanks_append_skipBlanks text
  rw [← forall_blank_iff] at hblanks
  cases hread : Token.read? (skipBlanks text) with
  | none =>
      rw [scan_of_read?_eq_none hread] at h ⊢
      have hskip : skipBlanks text = [] := h
      rw [hskip, List.append_nil] at htext
      exact .nil (htext ▸ hblanks)
  | some p =>
      obtain ⟨t, rest⟩ := p
      have hlt : rest.length < text.length :=
        Nat.lt_of_lt_of_le (Token.length_lt_of_read? hread) (length_skipBlanks_le text)
      rw [scan_of_read? hread] at h ⊢
      rw [← Token.spelling_append_of_read? hread] at htext
      rw [htext]
      exact .cons hblanks t.word_spelling (spells_of_scan h)
termination_by text.length

end Syntax

end MissionTime
