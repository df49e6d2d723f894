import MissionTime.Proofs.ErrorPosition
import MissionTime.Proofs.Staying
import MissionTime.Proofs.Termination

/-!
# Progress of Readings

To the ends of the tokens of a text correspond ends of the text: the scanner stands at a place
there, and behind it finds just the tokens that are left. The fewer tokens are left, the less is
left of the text. So what readings do to tokens they do to texts: if one succeeds it shortens the
text, and so does each round of a chain, and if one fails it does so at an end of the text.

The run of the readings of a text comes to an end, and where it fails there is an end of the text
from which the offset of the error is counted.

## Main definitions

* `remaining`: what is left of a text where some of its tokens are left.
* `IsLeft`: tokens that are left of a text, with what is left of it.
* `Progresses`, `ChainProgresses`: the readings, and the chains, that shorten a text.
* `conclude`: what a text comes to by the answer of a run.

## Main results

* `isLeft_of_suffix`, `remaining_length_lt`: ends of the tokens and ends of the text.
* `chain_progresses`: every round of a chain shortens the text.
* `readings_progress_and_end`: readings shorten texts, come to an end, and fail within the text.
-/

namespace MissionTime

open Text Syntax

/-! ### What is left of a text -/

/-- What is left of a text where some of its tokens are left. -/
def remaining (text : List Char) (rest : List Token) : List Char :=
  (scan text).textBefore rest.length

/-- **Tokens that are left of a text**: what is left of it is an end of it, and the scanner finds
there what it finds in the whole text after the other tokens. -/
structure IsLeft (text : List Char) (rest : List Token) : Prop where
  suffix : remaining text rest <:+ text
  tokens_eq : (scan (remaining text rest)).tokens = rest
  tail_eq : (scan (remaining text rest)).tail = (scan text).tail

/-- Every end of the tokens is left of the text. -/
theorem isLeft_of_suffix {text : List Char} {rest : List Token}
    (h : rest <:+ (scan text).tokens) : IsLeft text rest := by
  obtain ⟨ts, hts⟩ := h
  obtain ⟨before, htext, hplace⟩ := exists_passes hts.symm
  have htokens := hplace.tokens_eq _ rfl
  have htail := hplace.tail_eq _ rfl
  rw [← htext] at htokens htail
  refine ⟨⟨before, htext.symm⟩, ?_, htail.symm⟩
  rw [← hts] at htokens
  exact (List.append_cancel_left htokens).symm

/-- Behind the first token of a text, what is left of it is left of the text after this token. -/
theorem exists_remaining_eq {text : List Char} {t : Token} {ts : List Token}
    (h : (scan text).tokens = t :: ts) :
    ∃ text', text' <:+ skipBlanks text ∧ (scan text').tokens = ts ∧
      ∀ rest, rest <:+ ts → remaining text rest = remaining text' rest := by
  rcases hread : Token.read? (skipBlanks text) with _ | ⟨t', text'⟩
  · rw [scan_of_read?_eq_none hread] at h
    cases h
  · have hscan := scan_of_read? hread
    rw [hscan] at h
    obtain ⟨-, htokens⟩ : t' = t ∧ (scan text').tokens = ts := List.cons.inj h
    have hspelling := Token.spelling_append_of_read? hread
    refine ⟨text', ⟨t'.spelling, hspelling⟩, htokens, fun rest hrest => ?_⟩
    rw [remaining, remaining, hscan]
    exact textBefore_cons _ (scan text') (htokens ▸ hrest.length_le)

/-- **Where fewer tokens are left, less of the text is left.** Induction on the tokens that neither
end has. -/
theorem remaining_suffix {us ts rest : List Token} {text : List Char}
    (h : (scan text).tokens = us ++ (ts ++ rest)) :
    remaining text rest <:+ remaining text (ts ++ rest) := by
  induction us generalizing text with
  | nil =>
      cases ts with
      | nil => exact List.suffix_rfl
      | cons t ts =>
          obtain ⟨text', htext', htokens, hremaining⟩ := exists_remaining_eq h
          have hall : remaining text (t :: ts ++ rest) = skipBlanks text := by
            rw [← textBefore_length, h, List.nil_append]
            rfl
          have hrest : rest <:+ ts ++ rest := List.suffix_append ts rest
          rw [hall, hremaining rest hrest]
          exact (isLeft_of_suffix (htokens ▸ hrest)).suffix.trans htext'
  | cons u us ih =>
      obtain ⟨text', -, htokens, hremaining⟩ := exists_remaining_eq h
      rw [hremaining rest ((List.suffix_append ts rest).trans (List.suffix_append us _)),
        hremaining _ (List.suffix_append us _)]
      exact ih htokens

/-- From an end of the tokens to a shorter one the text gets shorter. -/
theorem remaining_length_lt {s rest : List Token} {text : List Char}
    (hs : s <:+ (scan text).tokens) (hrest : rest <:+ s) (hlt : rest.length < s.length) :
    remaining text rest <:+ remaining text s ∧
      (remaining text rest).length < (remaining text s).length := by
  have hleft := (isLeft_of_suffix (hrest.trans hs)).tokens_eq
  have hleft' := (isLeft_of_suffix hs).tokens_eq
  obtain ⟨us, hus⟩ := hs
  obtain ⟨ts, rfl⟩ := hrest
  have hsuffix := remaining_suffix hus.symm
  refine ⟨hsuffix, Nat.lt_of_le_of_ne hsuffix.length_le fun hlength => ?_⟩
  rw [hsuffix.eq_of_length hlength, hleft'] at hleft
  exact Nat.ne_of_lt hlt (congrArg List.length hleft).symm

/-- **A reading that makes progress** with a text. If it succeeds, what is left is an end of the
text and shorter than it. If it fails, it does so at an end of the text. -/
structure Progresses {α : Type} {bound : Nat} (m : Reading (Read α bound)) (text : List Char)
    (gauge : Nat) : Prop where
  shortens : ∀ value rest, result m gauge = .ok (value, rest) →
    IsLeft text rest ∧ (remaining text rest).length < text.length
  stays : ∀ e, result m gauge = .error e → IsLeft text e.rest

/-- A reading that stays within the tokens of a text makes progress with it. -/
theorem Syntax.StaysIn.progresses {α : Type} {text : List Char} {gauge : Nat}
    {m : Reading (Read α (scan text).tokens.length)}
    (h : StaysIn (scan text).tokens (result m gauge)) : Progresses m text gauge where
  shortens value rest hrest := by
    have hsuffix := h.ok _ hrest
    have hshorter := remaining_length_lt List.suffix_rfl hsuffix (length_lt_of_result hrest)
    have hwhole : remaining text (scan text).tokens <:+ text :=
      (isLeft_of_suffix List.suffix_rfl).suffix
    exact ⟨isLeft_of_suffix hsuffix, Nat.lt_of_lt_of_le hshorter.2 hwhole.length_le⟩
  stays e he := isLeft_of_suffix (h.error e he)

/-- **A chain that makes progress** with a text. After any number of rounds it goes another round,
or ends with what it has, or fails; and each round leaves less of the text than was left before it.
If the chain fails, it does so at an end of the text. -/
structure ChainProgresses (n : Nat) (left : Formula) (text : List Char) (gauge : Nat) : Prop where
  goes_on : ∀ p, Rounds n gauge (left, (scan text).tokens) p →
    (∃ q, Round n gauge p q) ∨ result (chain n left (scan text).tokens) gauge = .ok p ∨
      ∃ e, result (chain n left (scan text).tokens) gauge = .error e
  shortens : ∀ p q, Rounds n gauge (left, (scan text).tokens) p → Round n gauge p q →
    IsLeft text q.2 ∧ remaining text q.2 <:+ remaining text p.2 ∧
      (remaining text q.2).length < (remaining text p.2).length
  stays : ∀ e, result (chain n left (scan text).tokens) gauge = .error e → IsLeft text e.rest

theorem chain_progresses (n : Nat) (left : Formula) (text : List Char) (gauge : Nat) :
    ChainProgresses n left text gauge where
  goes_on p hp := by
    rw [hp.suffix.2]
    exact round_or_end n gauge p
  shortens p q hp hq := by
    obtain ⟨hrest, hlt⟩ := hq.suffix
    have htokens := hp.suffix.1
    exact ⟨isLeft_of_suffix (hrest.trans htokens), remaining_length_lt htokens hrest hlt⟩
  stays e he := isLeft_of_suffix (((staysIn_readings _).2.2 n left gauge).error e he)

/-! ### The run of the readings -/

/-- A text has at least as many characters as tokens. -/
theorem Syntax.Spells.length_le {ts : List Token} {text : List Char} (h : Spells ts text) :
    ts.length ≤ text.length := by
  induction h with
  | nil _ => exact Nat.zero_le _
  | @cons t _ _ _ _ _ hword _ ih =>
      obtain rfl := word_iff.mp hword
      have hpos := List.length_pos_iff.mpr t.spelling_ne_nil
      simp only [List.length_cons, List.length_append]
      omega

theorem length_tokens_le (text : List Char) : (scan text).tokens.length ≤ text.length := by
  obtain ⟨before, htext, hplace⟩ := exists_passes (List.append_nil (scan text).tokens).symm
  have hbefore : before <+: text := ⟨_, htext.symm⟩
  exact Nat.le_trans hplace.spells.length_le hbefore.length_le

/-- What a text comes to by the answer to the call for its tokens. -/
def conclude (text : List Char) (answer : Answer) : Except ParseError Formula :=
  (answer.bind fun f =>
    match f.2 with
    | [] => if (scan text).tail = [] then .ok f.1 else .error ⟨[], .trailing⟩
    | rest => .error ⟨rest, .trailing⟩).mapError (ParseError.ofFailure text)

theorem parse_eq_conclude (text : String) :
    parse text = conclude text.toList
      (result (expression loosestLevel .formula (scan text.toList).tokens) 0) := by
  rw [parse_eq, outcome_readText, outcome_formula, conclude]
  rcases result (expression loosestLevel .formula (scan text.toList).tokens) 0 with
    e | ⟨f, _ | ⟨t, rest⟩⟩ <;> rfl

/-! ### Offsets -/

/-- Where a reading fails, the text from the first visible character on is an end of the text. -/
theorem visible_suffix {text : List Char} {gauge : Nat} {e : Failure}
    (h : outcome (readText text) gauge = .error e) :
    skipWhiteSpace (remaining text e.rest) <:+ text := by
  obtain ⟨ts, -, hts, -⟩ := exists_phrase_of_outcome_readText h
  exact (List.dropWhile_suffix isWhiteSpace).trans (isLeft_of_suffix ⟨ts, hts.symm⟩).suffix

/-- An end of a text is not wider. -/
theorem utf8Width_le_of_suffix {a b : List Char} (h : a <:+ b) : utf8Width a ≤ utf8Width b := by
  obtain ⟨before, rfl⟩ := h
  rw [utf8Width_append]
  exact Nat.le_add_left _ _

/-- The distance from the beginning of a text to an end of it is a position in it. -/
theorem isValid_of_suffix {text : String} {left : List Char} (h : left <:+ text.toList) :
    String.Pos.Raw.IsValid text ⟨utf8Width text.toList - utf8Width left⟩ := by
  obtain ⟨before, hbefore⟩ := h
  refine String.Pos.Raw.isValid_iff_exists_append.mpr
    ⟨String.ofList before, String.ofList left, ?_, ?_⟩
  · rw [← String.ofList_append, hbefore, String.ofList_toList]
  · have hwidth : utf8Width before = (String.ofList before).utf8ByteSize := by
      rw [utf8ByteSize_eq_utf8Width, String.toList_ofList]
    rw [← hbefore, utf8Width_append, Nat.add_sub_cancel, hwidth]
    rfl

/-- The offset of an error is a position between two characters of the text. -/
theorem isValid_offset {text : String} {e : ParseError} (h : parse text = .error e) :
    String.Pos.Raw.IsValid text ⟨e.offset⟩ := by
  rw [parse_eq] at h
  rcases hread : outcome (readText text.toList) 0 with failure | f
  · rw [hread] at h
    cases h
    exact isValid_of_suffix (visible_suffix hread)
  · rw [hread] at h
    cases h

/-- **Readings make progress and come to an end.** Constants, variables, formulas in parentheses,
unary expressions, the expressions of all levels and intervals shorten every text with which they
succeed, and fail at an end of it otherwise. A chain goes on only by rounds, each of which shortens
what is left of the text. The run of the readings ends after a number of steps that is linear in the
length of the text, and its answer is what the text comes to. Where a text is refused, the visible
part from there on is no wider than the text, and the offset is a position between two characters
of it. -/
theorem readings_progress_and_end (text : String) :
    let s := (scan text.toList).tokens
    (∀ gauge, (∀ what, Progresses (constantLeaf what s) text.toList gauge ∧
        Progresses (variableLeaf what s) text.toList gauge ∧
        Progresses (subformula what s) text.toList gauge ∧
        Progresses (unary what s) text.toList gauge ∧
        ∀ level, Progresses (expression level what s) text.toList gauge) ∧
      Progresses (interval s) text.toList gauge ∧
      ∀ n left, ChainProgresses n left text.toList gauge) ∧
    (∃ answer, Machine.run (24 * (text.length + 1))
        ⟨.call (.expression loosestLevel .formula s), [], 0⟩ = ⟨.back answer, [], 0⟩ ∧
      parse text = conclude text.toList answer) ∧
    (∀ e, outcome (readText text.toList) 0 = .error e →
      utf8Width (skipWhiteSpace (remaining text.toList e.rest)) ≤ utf8Width text.toList) ∧
    ∀ e, parse text = .error e →
      e.offset ≤ text.utf8ByteSize ∧ String.Pos.Raw.IsValid text ⟨e.offset⟩ := by
  intro s
  refine ⟨fun gauge => ?_, ⟨_, Machine.run_call (c := .expression loosestLevel .formula s)
    (Nat.le_refl _) ?_ 0, parse_eq_conclude text⟩,
    fun e he => utf8Width_le_of_suffix (visible_suffix he), fun e he => ?_⟩
  · obtain ⟨hunary, hexpression, -⟩ := staysIn_readings s
    exact ⟨fun what => ⟨staysIn_constantLeaf.progresses, staysIn_variableLeaf.progresses,
      (staysIn_subformula fun s' _ => (staysIn_readings s').2.1 _ _).progresses,
      (hunary what gauge).progresses, fun level => (hexpression level what gauge).progresses⟩,
      (staysIn_interval s gauge).progresses,
      fun n left => chain_progresses n left text.toList gauge⟩
  · have htokens := length_tokens_le text.toList
    rw [String.length_toList] at htokens
    exact Nat.mul_le_mul_left 24 (Nat.succ_le_succ htokens)
  · have hvalid := isValid_offset he
    exact ⟨hvalid.le_rawEndPos, hvalid⟩

/-- A conjunct and its operator are taken, and a character is left that takes two bytes. And an
operand is missed where white space of three bytes comes before this character: the text is refused
behind the white space. -/
theorem readings_progress_and_end_before_accent :
    Round 1 0 (.const true, (scan "& p1é".toList).tokens)
        (.connective .and (.const true) (.var 1), []) ∧
      (remaining "& p1é".toList []).length <
        (remaining "& p1é".toList (scan "& p1é".toList).tokens).length ∧
      parse "p0 &\u2003é" = .error ⟨7, .unknownCharacter 'é'⟩ ∧
      7 ≤ "p0 &\u2003é".utf8ByteSize ∧ String.Pos.Raw.IsValid "p0 &\u2003é" ⟨7⟩ := by
  have htokens : (scan "& p1é".toList).tokens = [.connective .and, .variable (.ofNat 1)] := by
    decide +kernel
  have hderives : Derives 1 1 [.variable (.ofNat 1)] (.var 1) :=
    .single (.variable (Numeral.value_ofNat 1))
  have hright := result_expression_of_derives hderives .operand (stops_nil 1) 0 (by decide)
  rw [List.append_nil, resumed_of_stops (stops_nil 2)] at hright
  have hround : Round 1 0 (.const true, (scan "& p1é".toList).tokens)
      (.connective .and (.const true) (.var 1), []) := by
    rw [htokens]
    exact .intro (infixResult_of_derives .and [.variable (.ofNat 1)] 0) hright
  have herror : parse "p0 &\u2003é" = .error ⟨7, .unknownCharacter 'é'⟩ := by decide +kernel
  obtain ⟨hreadings, -⟩ := readings_progress_and_end "& p1é"
  obtain ⟨-, -, hshorter⟩ := ((hreadings 0).2.2 1 (.const true)).shortens _ _ .refl hround
  obtain ⟨-, -, -, hoffset⟩ := readings_progress_and_end "p0 &\u2003é"
  exact ⟨hround, hshorter, herror, hoffset _ herror⟩

end MissionTime
