import MissionTime.Proofs.Acceptance
import MissionTime.Proofs.Borders

/-!
# Blanks Replaced by Blanks

How many blanks stand somewhere in a text, and which, does not matter, as long as there are any.
Before a run of blanks there is a border, and behind it a text is divided as without the run. So
the tokens are the same, and each place in the one text corresponds to a place in the other: what
stands behind the run stands there in both, and what begins before it goes on behind it in both.

An error is diagnosed at a place from the token or the word that stands there, and neither extends
over the run. So the diagnosis is the same, and only offsets behind the run are moved.

## Main definitions

* `BlankRun`: a nonempty run of blanks.
* `SamePlace`: corresponding places of two texts that differ in a run of blanks.
* `Scan.Related`: scans with the same tokens at corresponding places.

## Main results

* `related_scan`: the two texts are divided alike.
* `SamePlace.diagnose_eq`: at corresponding places the same is diagnosed.
* `parse_respaced`: the two texts are read alike, and errors are moved with the text.
-/

namespace MissionTime

open Text Syntax

/-! ### Places of scans -/

namespace Syntax

/-- What a scan keeps of a text are ends of the text, and a token stands at the beginning of its
own. Induction on the length of the text. -/
theorem suffix_of_scan (text : List Char) :
    (∀ lexeme ∈ (scan text).lexemes, lexeme.text ≠ [] ∧ lexeme.text <:+ text) ∧
      (scan text).tail <:+ text := by
  induction hlength : text.length using Nat.strongRecOn generalizing text with
  | ind length ih =>
      have hskip : skipBlanks text <:+ text := List.dropWhile_suffix isBlank
      rcases hread : Token.read? (skipBlanks text) with _ | ⟨t, rest⟩
      · rw [scan_of_read?_eq_none hread]
        exact ⟨List.forall_mem_nil _, hskip⟩
      · have hspelling := Token.spelling_append_of_read? hread
        have hrest : rest <:+ text := (hspelling ▸ List.suffix_append _ _).trans hskip
        have hne : skipBlanks text ≠ [] := by
          rw [← hspelling]
          exact List.append_ne_nil_of_left_ne_nil t.spelling_ne_nil _
        have hlt : rest.length < length :=
          hlength ▸ Nat.lt_of_lt_of_le (Token.length_lt_of_read? hread) (length_skipBlanks_le text)
        obtain ⟨hlexemes, htail⟩ := ih _ hlt rest rfl
        rw [scan_of_read? hread]
        refine ⟨List.forall_mem_cons.mpr ⟨⟨hne, hskip⟩, fun lexeme hmem => ?_⟩,
          htail.trans hrest⟩
        obtain ⟨hne', hsuffix⟩ := hlexemes lexeme hmem
        exact ⟨hne', hsuffix.trans hrest⟩

/-- Lexemes with the same token, whose texts are related. -/
structure Lexeme.Related (R : List Char → List Char → Prop) (l l' : Lexeme) : Prop where
  token_eq : l.token = l'.token
  text : R l.text l'.text

/-- Scans with the same tokens, whose texts are related one by one. -/
structure Scan.Related (R : List Char → List Char → Prop) (s s' : Scan) : Prop where
  lexemes : List.Forall₂ (Lexeme.Related R) s.lexemes s'.lexemes
  tail : R s.tail s'.tail

namespace Scan.Related

variable {R : List Char → List Char → Prop} {s s' : Scan}

theorem tokens_eq (h : s.Related R s') : s.tokens = s'.tokens := by
  have htokens : List.Forall₂ (· = ·) s.tokens s'.tokens := by
    rw [tokens, tokens, List.forall₂_map_left_iff, List.forall₂_map_right_iff]
    exact h.lexemes.imp fun _ _ hl => hl.token_eq
  rwa [List.forall₂_eq_eq_eq] at htokens

/-- Where the same number of tokens is left, the texts are related. -/
theorem textBefore (h : s.Related R s') (n : Nat) : R (s.textBefore n) (s'.textBefore n) := by
  have hdrop := List.forall₂_drop (s.lexemes.length - n) h.lexemes
  rw [Scan.textBefore, Scan.textBefore, ← h.lexemes.length_eq]
  generalize s.lexemes.drop (s.lexemes.length - n) = ls at hdrop ⊢
  generalize s'.lexemes.drop (s.lexemes.length - n) = ls' at hdrop ⊢
  rcases hdrop with _ | ⟨hl, -⟩
  · exact h.tail
  · exact hl.text

end Scan.Related

end Syntax

/-! ### Corresponding places -/

/-- A nonempty run of blanks. -/
structure BlankRun (w : List Char) : Prop where
  ne_nil : w ≠ []
  blank_of_mem : ∀ c ∈ w, Blank c

theorem BlankRun.isBlank_of_mem {w : List Char} (h : BlankRun w) : ∀ c ∈ w, isBlank c = true :=
  forall_blank_iff.mp h.blank_of_mem

/-- Before a run of blanks there is a border. -/
theorem BlankRun.apart {w : List Char} (h : BlankRun w) (a b : List Char) :
    Apart a (w ++ b) := by
  obtain ⟨c, cs, rfl⟩ := List.exists_cons_of_ne_nil h.ne_nil
  exact apart_of_isBlank rfl (h.isBlank_of_mem c List.mem_cons_self) a

/-- White space that is skipped goes on over a run of blanks. -/
theorem BlankRun.skipWhiteSpace_append {w : List Char} (h : BlankRun w) (y b : List Char) :
    skipWhiteSpace (y ++ (w ++ b)) =
      if skipWhiteSpace y = [] then skipWhiteSpace b else skipWhiteSpace y ++ (w ++ b) := by
  have hrun : skipWhiteSpace (w ++ b) = skipWhiteSpace b :=
    List.dropWhile_append_of_pos fun c hc => isWhiteSpace_of_isBlank (h.isBlank_of_mem c hc)
  rw [skipWhiteSpace, List.dropWhile_append]
  simp only [List.isEmpty_iff]
  exact if_congr Iff.rfl hrun rfl

/-- A word ends before a run of blanks. -/
theorem BlankRun.takeWhile_append {w : List Char} (h : BlankRun w) {p : Char → Bool}
    (hp : ∀ c, isBlank c = true → p c = false) (y b : List Char) :
    (y ++ (w ++ b)).takeWhile p = y.takeWhile p := by
  induction y with
  | nil =>
      obtain ⟨c, cs, rfl⟩ := List.exists_cons_of_ne_nil h.ne_nil
      have hc := hp c (h.isBlank_of_mem c List.mem_cons_self)
      exact List.takeWhile_cons_of_neg (by simp [hc])
  | cons d y ih => simp only [List.cons_append, List.takeWhile_cons, ih]

/-- There are no blanks in a word. -/
theorem isAlphanum_of_isBlank {c : Char} (h : isBlank c = true) :
    (c.isAlphanum || c == '_') = false := by
  simp only [isBlank, Bool.or_eq_true, beq_iff_eq] at h
  rcases h with ((rfl | rfl) | rfl) | rfl <;> decide

/-- What is found before a run of blanks does not depend on it: neither a token nor a word extends
over the run. -/
theorem BlankRun.found_append {w y : List Char} (h : BlankRun w) (hne : y ≠ []) (b : List Char) :
    ParseError.found (y ++ (w ++ b)) = ParseError.found y := by
  obtain ⟨c, cs, rfl⟩ := List.exists_cons_of_ne_nil hne
  have hread := h.apart (c :: cs) b _ hne List.suffix_rfl
  have hword := h.takeWhile_append (fun _ => isAlphanum_of_isBlank) (c :: cs) b
  rw [List.cons_append] at hread hword ⊢
  rcases hfirst : Token.read? (c :: cs) with _ | ⟨t, rest⟩
  · simp only [ParseError.found, hread, hfirst, Option.map_none, hword]
  · simp only [ParseError.found, hread, hfirst, Option.map_some, behind]

/-- **Corresponding places** of the texts `a ++ (w ++ b)` and `a ++ (w' ++ b)`: the texts from
there on begin alike in `a`, or they are the same part of `b`. -/
inductive SamePlace (a b w w' : List Char) : List Char → List Char → Prop
  | before {y : List Char} (hne : y ≠ []) (hy : y <:+ a) :
      SamePlace a b w w' (y ++ (w ++ b)) (y ++ (w' ++ b))
  | behind {z : List Char} (hz : z <:+ b) : SamePlace a b w w' z z

section

variable {a b w w' x x' : List Char}

/-- **The two texts are divided alike.** -/
theorem related_scan (hw : BlankRun w) (hw' : BlankRun w') :
    (scan (a ++ (w ++ b))).Related (SamePlace a b w w') (scan (a ++ (w' ++ b))) := by
  obtain ⟨hlexemes, htail⟩ := suffix_of_scan a
  obtain ⟨hlexemes', htail'⟩ := suffix_of_scan b
  have hfirst : List.Forall₂ (Lexeme.Related (SamePlace a b w w'))
      ((scan a).lexemes.map fun l => ⟨l.token, l.text ++ (w ++ b)⟩)
      ((scan a).lexemes.map fun l => ⟨l.token, l.text ++ (w' ++ b)⟩) := by
    rw [List.forall₂_map_left_iff, List.forall₂_map_right_iff, List.forall₂_same]
    intro l hl
    obtain ⟨hne, hsuffix⟩ := hlexemes l hl
    exact ⟨rfl, .before hne hsuffix⟩
  have hsecond : List.Forall₂ (Lexeme.Related (SamePlace a b w w'))
      (scan b).lexemes (scan b).lexemes := by
    rw [List.forall₂_same]
    intro l hl
    exact ⟨rfl, .behind (hlexemes' l hl).2⟩
  rw [scan_append (hw.apart a b), scan_append (hw'.apart a b), Scan.followedBy, Scan.followedBy,
    scan_blanks_append hw.isBlank_of_mem, scan_blanks_append hw'.isBlank_of_mem]
  split
  · exact ⟨List.rel_append hfirst hsecond, .behind htail'⟩
  · rename_i hne
    exact ⟨hfirst, .before hne htail⟩

namespace SamePlace

/-- Corresponding places are both at the end of the text, or both are not. -/
theorem eq_nil_iff (h : SamePlace a b w w' x x') : x = [] ↔ x' = [] := by
  rcases h with ⟨hne, -⟩ | -
  · simp [hne]
  · rfl

theorem head?_eq (h : SamePlace a b w w' x x') : x.head? = x'.head? := by
  rcases h with ⟨hne, -⟩ | -
  · rw [List.head?_append_of_ne_nil _ hne, List.head?_append_of_ne_nil _ hne]
  · rfl

/-- Behind white space the places still correspond. -/
theorem skipWhiteSpace (hw : BlankRun w) (hw' : BlankRun w') (h : SamePlace a b w w' x x') :
    SamePlace a b w w' (Text.skipWhiteSpace x) (Text.skipWhiteSpace x') := by
  rcases h with ⟨hne, hy⟩ | hz
  · rw [hw.skipWhiteSpace_append, hw'.skipWhiteSpace_append]
    split
    · exact .behind (List.dropWhile_suffix isWhiteSpace)
    · rename_i hvisible
      exact .before hvisible ((List.dropWhile_suffix isWhiteSpace).trans hy)
  · exact .behind ((List.dropWhile_suffix isWhiteSpace).trans hz)

/-- At corresponding places the same token is read, if any is. -/
theorem read?_eq (hw : BlankRun w) (hw' : BlankRun w') (h : SamePlace a b w w' x x') :
    (Token.read? x).map Prod.fst = (Token.read? x').map Prod.fst := by
  rcases h with ⟨hne, -⟩ | -
  · rw [hw.apart _ b _ hne List.suffix_rfl, hw'.apart _ b _ hne List.suffix_rfl, Option.map_map,
      Option.map_map]
    rfl
  · rfl

/-- At corresponding places the same is found. -/
theorem found_eq (hw : BlankRun w) (hw' : BlankRun w') (h : SamePlace a b w w' x x') :
    ParseError.found x = ParseError.found x' := by
  rcases h with ⟨hne, -⟩ | -
  · rw [hw.found_append hne, hw'.found_append hne]
  · rfl

/-- **At corresponding places the same is diagnosed.** -/
theorem diagnose_eq (hw : BlankRun w) (hw' : BlankRun w') (h : SamePlace a b w w' x x')
    (cause : Failure.Cause) :
    ParseError.diagnose cause x (Text.skipWhiteSpace x) =
      ParseError.diagnose cause x' (Text.skipWhiteSpace x') := by
  have hread : Token.read? x = none ↔ Token.read? x' = none := by
    rw [← Option.map_eq_none_iff (f := Prod.fst), h.read?_eq hw hw', Option.map_eq_none_iff]
  simp only [ParseError.diagnose, (h.skipWhiteSpace hw hw').found_eq hw hw', h.head?_eq, hread]

/-- How far corresponding places are from the beginning of their texts. -/
theorem offset (h : SamePlace a b w w' x x') :
    let o := utf8Width (a ++ (w ++ b)) - utf8Width x
    let o' := utf8Width (a ++ (w' ++ b)) - utf8Width x'
    o < utf8Width a ∧ o' = o ∨
      utf8Width a + utf8Width w ≤ o ∧ o' + utf8Width w = o + utf8Width w' := by
  rcases h with @⟨y, hne, hy⟩ | hz
  · obtain ⟨p, rfl⟩ := hy
    have hpos := utf8Width_pos hne
    simp only [utf8Width_append]
    omega
  · obtain ⟨r, rfl⟩ := hz
    simp only [utf8Width_append]
    omega

end SamePlace

/-! ### Texts that differ in a run of blanks -/

/-- The two texts are read with the same outcome. -/
theorem outcome_readText_eq (hw : BlankRun w) (hw' : BlankRun w') (gauge : Nat) :
    outcome (readText (a ++ (w ++ b))) gauge = outcome (readText (a ++ (w' ++ b))) gauge := by
  have h : (scan (a ++ (w ++ b))).Related (SamePlace a b w w') (scan (a ++ (w' ++ b))) :=
    related_scan hw hw'
  simp only [outcome_readText, h.tokens_eq, h.tail.eq_nil_iff]

/-- The errors for the same failure have the same reason, and the second one is moved if it is
behind the run. -/
theorem ofFailure_respaced (hw : BlankRun w) (hw' : BlankRun w') (failure : Failure) :
    let e := ParseError.ofFailure (a ++ (w ++ b)) failure
    let e' := ParseError.ofFailure (a ++ (w' ++ b)) failure
    e'.reason = e.reason ∧
      (e.offset < utf8Width a ∧ e'.offset = e.offset ∨
        utf8Width a + utf8Width w ≤ e.offset ∧
          e'.offset + utf8Width w = e.offset + utf8Width w') := by
  have hscan : (scan (a ++ (w ++ b))).Related (SamePlace a b w w') (scan (a ++ (w' ++ b))) :=
    related_scan hw hw'
  have hplace := hscan.textBefore failure.rest.length
  exact ⟨(hplace.diagnose_eq hw hw' failure.cause).symm, (hplace.skipWhiteSpace hw hw').offset⟩

end

/-- **Runs of blanks are interchangeable.** If a run of blanks anywhere in a text is replaced by
another one, the text is read as the same formula, or refused for the same reason and with the
same category. The offset of the error is as before if it is before the run, and otherwise it is
behind the run and moved by the difference in length. -/
theorem parse_respaced {w w' : String} (hw : BlankRun w.toList) (hw' : BlankRun w'.toList)
    (a b : String) :
    (∃ f, parse (a ++ (w ++ b)) = .ok f ∧ parse (a ++ (w' ++ b)) = .ok f) ∨
      ∃ e e', parse (a ++ (w ++ b)) = .error e ∧ parse (a ++ (w' ++ b)) = .error e' ∧
        e'.category = e.category ∧ e'.reason = e.reason ∧
        (e.offset < a.utf8ByteSize ∧ e'.offset = e.offset ∨
          a.utf8ByteSize + w.utf8ByteSize ≤ e.offset ∧
            e'.offset + w.utf8ByteSize = e.offset + w'.utf8ByteSize) := by
  simp only [parse_eq, String.toList_append, utf8ByteSize_eq_utf8Width,
    outcome_readText_eq hw hw' 0]
  rcases outcome (readText (a.toList ++ (w'.toList ++ b.toList))) 0 with failure | f
  · obtain ⟨hreason, hoffset⟩ := ofFailure_respaced hw hw' failure
    refine Or.inr ⟨_, _, rfl, rfl, ?_, hreason, hoffset⟩
    rw [ParseError.category, ParseError.category, hreason]
  · exact Or.inl ⟨f, rfl, rfl⟩

/-- A space between two operators is replaced by a line feed and a tab. The second operator is
refused in both texts, one byte further in the second one. -/
theorem parse_respaced_operators :
    BlankRun " ".toList ∧ BlankRun "\n\t".toList ∧
      parse ("p0 &" ++ (" " ++ "| p1")) = .error ⟨5, .expected .operand (some (.connective .or))⟩ ∧
      parse ("p0 &" ++ ("\n\t" ++ "| p1")) =
        .error ⟨6, .expected .operand (some (.connective .or))⟩ := by
  have hspace : BlankRun " ".toList :=
    ⟨by decide, forall_blank_iff.mpr (List.all_eq_true.mp rfl)⟩
  have hlines : BlankRun "\n\t".toList :=
    ⟨by decide, forall_blank_iff.mpr (List.all_eq_true.mp rfl)⟩
  have herror : parse ("p0 &" ++ (" " ++ "| p1")) =
      .error ⟨5, .expected .operand (some (.connective .or))⟩ := by decide +kernel
  refine ⟨hspace, hlines, herror, ?_⟩
  rcases parse_respaced hspace hlines "p0 &" "| p1" with
    ⟨f, hf, -⟩ | ⟨e, e', he, he', -, hreason, hoffset⟩
  · rw [herror] at hf
    cases hf
  · obtain rfl := Except.error.inj (he.symm.trans herror)
    obtain ⟨hbefore, -⟩ | ⟨-, hmoved⟩ := hoffset
    · exact absurd hbefore (by decide +kernel)
    · have hsix : e'.offset = 6 := Nat.add_right_cancel hmoved
      obtain ⟨offset, reason⟩ := e'
      cases hreason
      cases hsix
      exact he'

end MissionTime
