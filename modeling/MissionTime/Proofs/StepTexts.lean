import MissionTime.Proofs.BinaryExpansion
import MissionTime.Proofs.RelevantBits

/-!
# The Texts of Steps and of Traces

Writing the text of a step and reading it back are inverse to each other. A text that is the text
of no step is answered by the first character that stands for no bit. The texts of a trace are read
one after the other, and the first one that is refused decides.

Positions are counted in characters. All characters before the one that is refused are digits, so
counting bytes would give the same number.

## Main results

* `mapM_eq_ok_iff`, `mapM_eq_error_iff`: a sequence of computations that can fail.
* `Step.parse_ok_iff`, `Step.parse_error_iff`: how the text of a step is read.
* `Trace.parse_ok_iff`, `Trace.parse_error_iff`: how the texts of a trace are read.
* `Trace.texts_read_back`: the two together, for all texts.
-/

namespace MissionTime

open Text

/-! ### Sequences of computations that can fail -/

section Sequences

variable {α β ε : Type} {f : α → Except ε β}

theorem map_eq_ok_iff {x : Except ε α} {g : α → β} {b : β} :
    x.map g = .ok b ↔ ∃ a, x = .ok a ∧ g a = b := by
  cases x <;> simp [Except.map]

theorem map_eq_error_iff {x : Except ε α} {g : α → β} {e : ε} :
    x.map g = .error e ↔ x = .error e := by
  cases x <;> simp [Except.map]

theorem mapM_cons_eq_ok_iff {a : α} {as : List α} {bs : List β} :
    (a :: as).mapM f = .ok bs ↔ ∃ b cs, bs = b :: cs ∧ f a = .ok b ∧ as.mapM f = .ok cs := by
  rw [List.mapM_cons]
  cases f a with
  | error e => simp [bind, Except.bind]
  | ok b => cases as.mapM f <;> simp [bind, Except.bind, pure, Except.pure, eq_comm]

theorem mapM_cons_eq_error_iff {a : α} {as : List α} {e : ε} :
    (a :: as).mapM f = .error e ↔
      f a = .error e ∨ (∃ b, f a = .ok b) ∧ as.mapM f = .error e := by
  rw [List.mapM_cons]
  cases f a with
  | error e => simp [bind, Except.bind]
  | ok b => cases as.mapM f <;> simp [bind, Except.bind, pure, Except.pure]

/-- A sequence of computations succeeds if each of them does, with their values in order. -/
theorem mapM_eq_ok_iff {as : List α} {bs : List β} :
    as.mapM f = .ok bs ↔ as.map f = bs.map .ok := by
  induction as generalizing bs with
  | nil => cases bs <;> simp [pure, Except.pure]
  | cons a as ih =>
      rw [mapM_cons_eq_ok_iff, List.map_cons]
      cases bs with
      | nil => simp
      | cons b bs => simp [ih]

/-- It fails with the error of the first one that does. -/
theorem mapM_eq_error_iff {as : List α} {e : ε} :
    as.mapM f = .error e ↔ ∃ before a after, as = before ++ a :: after ∧
      (∀ a' ∈ before, ∃ b, f a' = .ok b) ∧ f a = .error e := by
  induction as with
  | nil => simp [pure, Except.pure]
  | cons a as ih =>
      rw [mapM_cons_eq_error_iff, ih]
      constructor
      · rintro (ha | ⟨hok, before, a', after, rfl, hbefore, ha'⟩)
        · exact ⟨[], a, as, rfl, List.forall_mem_nil _, ha⟩
        · exact ⟨a :: before, a', after, rfl, List.forall_mem_cons.mpr ⟨hok, hbefore⟩, ha'⟩
      · rintro ⟨before, a', after, hsplit, hbefore, ha'⟩
        cases before with
        | nil =>
            obtain ⟨rfl, rfl⟩ := List.cons.inj hsplit
            exact .inl ha'
        | cons b before =>
            obtain ⟨rfl, rfl⟩ := List.cons.inj hsplit
            obtain ⟨hok, hrest⟩ := List.forall_mem_cons.mp hbefore
            exact .inr ⟨hok, before, a', after, rfl, hrest, ha'⟩

end Sequences

/-! ### Steps -/

namespace Step

/-- Bits are read from their digits and from nothing else. -/
theorem parseBits_ok_iff {position : Nat} {chars : List Char} {bits : List Bool} :
    parseBits position chars = .ok bits ↔ bits.map digit = chars := by
  constructor
  · intro h
    fun_induction parseBits position chars generalizing bits with
    | case1 =>
        cases h
        rfl
    | case2 position rest ih =>
        obtain ⟨bits', hrest, rfl⟩ := map_eq_ok_iff.mp h
        exact congrArg ('0' :: ·) (ih hrest)
    | case3 position rest ih =>
        obtain ⟨bits', hrest, rfl⟩ := map_eq_ok_iff.mp h
        exact congrArg ('1' :: ·) (ih hrest)
    | case4 => cases h
  · rintro rfl
    induction bits generalizing position with
    | nil => rfl
    | cons bit bits ih =>
        have htail : parseBits (position + 1) (bits.map digit) = .ok bits := ih
        cases bit with
        | false => exact congrArg (Except.map (false :: ·)) htail
        | true => exact congrArg (Except.map (true :: ·)) htail

/-- **Reading inverts writing**: a text is read as the step whose text it is. -/
theorem parse_ok_iff {text : String} {s : Step} :
    Step.parse text = .ok s ↔ s.text = text := by
  rw [Step.parse, map_eq_ok_iff, ← String.toList_inj, toList_text]
  constructor
  · rintro ⟨bits, hbits, rfl⟩
    exact parseBits_ok_iff.mp hbits
  · intro h
    exact ⟨s.bits, parseBits_ok_iff.mpr h, rfl⟩

/-- The texts of steps are those of zeros and ones. -/
theorem isBinary_text (s : Step) : IsBinary s.text := by
  intro c hc
  rw [toList_text] at hc
  obtain ⟨bit, -, rfl⟩ := List.mem_map.mp hc
  cases bit with
  | false => exact .inl rfl
  | true => exact .inr rfl

/-- A text is read if it consists of zeros and ones. -/
theorem exists_parse_ok_iff {text : String} :
    (∃ s, Step.parse text = .ok s) ↔ IsBinary text := by
  constructor
  · rintro ⟨s, hs⟩
    exact parse_ok_iff.mp hs ▸ s.isBinary_text
  · intro h
    exact ⟨_, parse_eq_ok h⟩

/-! ### Refused characters -/

/-- A character that stands for no bit is refused, behind any that do. -/
theorem parseBits_error {before : List Char} (h : ∀ c ∈ before, c = '0' ∨ c = '1') {c : Char}
    (hc : ¬ (c = '0' ∨ c = '1')) (position : Nat) (after : List Char) :
    parseBits position (before ++ c :: after) = .error ⟨position + before.length, c⟩ := by
  induction before generalizing position with
  | nil =>
      obtain ⟨hzero, hone⟩ := not_or.mp hc
      rw [List.nil_append, parseBits]
      · rfl
      · exact hzero
      · exact hone
  | cons b before ih =>
      obtain ⟨hb, hbefore⟩ := List.forall_mem_cons.mp h
      have htail := ih hbefore (position + 1)
      rw [Nat.add_right_comm, Nat.add_assoc] at htail
      obtain rfl | rfl := hb
      · exact congrArg (Except.map (false :: ·)) htail
      · exact congrArg (Except.map (true :: ·)) htail

/-- **The first character that stands for no bit is refused**, at its position in characters. -/
theorem parse_error_iff {text : String} {e : StepError} :
    Step.parse text = .error e ↔ ∃ before after, text.toList = before ++ e.found :: after ∧
      e.position = before.length ∧ (∀ c ∈ before, c = '0' ∨ c = '1') ∧
        ¬ (e.found = '0' ∨ e.found = '1') := by
  rw [Step.parse, map_eq_error_iff]
  constructor
  · intro h
    rcases hfirst : text.toList.find? fun c => !(c == '0' || c == '1') with _ | c
    · have hbinary : IsBinary text := fun c hc => by
        simpa [or_iff_not_imp_left] using List.find?_eq_none.mp hfirst c hc
      rw [parseBits_eq_ok hbinary] at h
      cases h
    · obtain ⟨hc, before, after, htext, hbefore⟩ := List.find?_eq_some_iff_append.mp hfirst
      have hfound : ¬ (c = '0' ∨ c = '1') := by simpa using hc
      have hdigits : ∀ b ∈ before, b = '0' ∨ b = '1' := fun b hb => by simpa using hbefore b hb
      rw [htext, parseBits_error hdigits hfound, Nat.zero_add] at h
      cases h
      exact ⟨before, after, htext, rfl, hdigits, hfound⟩
  · rintro ⟨before, after, htext, hposition, hbefore, hfound⟩
    rw [htext, parseBits_error hbefore hfound, Nat.zero_add, ← hposition]

end Step

/-! ### Traces -/

namespace Trace

/-- A trace is read if each of its texts is, with the steps in order. -/
theorem parse_ok_iff {texts : List String} {t : Trace Step} :
    Trace.parse texts = .ok t ↔ texts.map Step.parse = t.toList.map .ok := by
  have hparse : Trace.parse texts = (texts.mapM Step.parse).map ofList := rfl
  rw [hparse, map_eq_ok_iff, ← mapM_eq_ok_iff]
  constructor
  · rintro ⟨steps, hsteps, rfl⟩
    exact hsteps
  · intro h
    exact ⟨t.toList, h, rfl⟩

/-- Otherwise the first text that is refused decides. -/
theorem parse_error_iff {texts : List String} {e : StepError} :
    Trace.parse texts = .error e ↔ ∃ before text after, texts = before ++ text :: after ∧
      (∀ text' ∈ before, ∃ s, Step.parse text' = .ok s) ∧ Step.parse text = .error e :=
  map_eq_error_iff.trans mapM_eq_error_iff

/-- A trace is read if each of its texts is. -/
theorem exists_parse_ok_iff {texts : List String} :
    (∃ t, Trace.parse texts = .ok t) ↔ ∀ text ∈ texts, ∃ s, Step.parse text = .ok s := by
  constructor
  · rintro ⟨t, ht⟩ text htext
    have hmem : Step.parse text ∈ t.toList.map .ok :=
      parse_ok_iff.mp ht ▸ List.mem_map_of_mem htext
    obtain ⟨s, -, hs⟩ := List.mem_map.mp hmem
    exact ⟨s, hs.symm⟩
  · intro h
    exact ⟨_, trace_parse_eq_ok fun text htext => Step.exists_parse_ok_iff.mp (h text htext)⟩

/-- **The texts of steps and traces are read back.** The text of a step is read as the step. A
text is read if it consists of zeros and ones, and it is the text of the step then; otherwise its
first other character is refused, at its position in characters. Texts are read as a trace if each
of them is read, with the steps in order; otherwise the outcome is the error of the first one that
is refused. -/
theorem texts_read_back :
    (∀ s : Step, Step.parse s.text = .ok s) ∧
      (∀ text : String, ((∃ s, Step.parse text = .ok s) ↔ IsBinary text) ∧
        (∀ s, Step.parse text = .ok s ↔ s.text = text) ∧
        ∀ e, Step.parse text = .error e ↔ ∃ before after,
          text.toList = before ++ e.found :: after ∧ e.position = before.length ∧
            (∀ c ∈ before, c = '0' ∨ c = '1') ∧ ¬ (e.found = '0' ∨ e.found = '1')) ∧
      ∀ texts : List String,
        ((∃ t, Trace.parse texts = .ok t) ↔ ∀ text ∈ texts, ∃ s, Step.parse text = .ok s) ∧
        (∀ t, Trace.parse texts = .ok t ↔ texts.map Step.parse = t.toList.map .ok) ∧
        ∀ e, Trace.parse texts = .error e ↔ ∃ before text after,
          texts = before ++ text :: after ∧ (∀ text' ∈ before, ∃ s, Step.parse text' = .ok s) ∧
            Step.parse text = .error e :=
  ⟨fun _ => Step.parse_ok_iff.mpr rfl,
    fun _ => ⟨Step.exists_parse_ok_iff, fun _ => Step.parse_ok_iff,
      fun _ => Step.parse_error_iff⟩,
    fun _ => ⟨exists_parse_ok_iff, fun _ => parse_ok_iff, fun _ => parse_error_iff⟩⟩

/-- The second text is refused at its second character, and the third one is not looked at. -/
example : Trace.parse ["10", "1é0", "2"] = .error ⟨1, 'é'⟩ := rfl

end Trace

end MissionTime
