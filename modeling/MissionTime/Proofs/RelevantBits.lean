import Mathlib.Data.List.Basic
import MissionTime.Proofs.WindowSimulation

/-!
# Relevant Bits

The value of a formula depends on no more than the values of its own variables at the steps of
the trace, where a variable without a bit counts as false. Two traces of one length on which
these agree give a formula the same value on every window, whatever the types of their states
are and however wide the states. As both are evaluated at the same positions, this holds for all
positions, also for those that are no words.

So it makes no difference how the bits of a state are held: a text of zeros and ones, a part of
it, its bits in a list or in an array, and the step that is read from it are interchangeable.
Neither do bits matter that are added on the right of a state, as long as none of them is a one
for a variable of the formula.

## Main definitions

* `Formula.varIds`: the variables of a formula.
* `State.value`, `Trace.value`: the bit of a variable, or false if there is none.
* `Text.IsBinary`, `Text.bits`: the texts of zeros and ones, and their bits.
* `Formula.IgnoresAdded`: characters behind a text that make no variable of the formula true.

## Main results

* `Formula.eval_eq_of_value_eq`: evaluation sees only the variables of the formula.
* `Formula.evaluateWindow_eq_of_relevant_bits`: the same for traces of one length, with the
  types of states and the added bits as cases.
-/

namespace MissionTime

variable {σ τ : Type} [State σ] [State τ]

/-! ### Values of variables -/

/-- The value of a variable in a state: its bit, or false if it has none. -/
def State.value (state : σ) (id : Nat) : Bool :=
  (State.bit? state id).getD false

/-- The value of a variable at a step of a trace, false where there is no such step. -/
def Trace.value (t : Trace σ) (i id : Nat) : Bool :=
  (t.bit? i id).getD false

theorem Trace.value_eq_false {t : Trace σ} {i : Nat} (h : t.size ≤ i) (id : Nat) :
    t.value i id = false := by
  have hget : t.get? i = none := Array.getElem?_eq_none h
  rw [value, bit?, hget]
  rfl

namespace Formula

/-- The numbers of the variables of a formula, in the order in which they occur. -/
def varIds (f : Formula) : List UInt32 :=
  f.preorder.filterMap id?

theorem varIds_connective (op : Connective) (l r : Formula) :
    (connective op l r).varIds = l.varIds ++ r.varIds :=
  List.filterMap_append

theorem varIds_binary (op : BinaryTemporal) (I : Interval) (l r : Formula) :
    (binary op l I r).varIds = l.varIds ++ r.varIds :=
  List.filterMap_append

/-! ### Evaluation and the variables of a formula -/

/-- The values of a variable are all that its evaluation sees. -/
theorem evalVar_eq (id : UInt32) (t : Trace σ) (start stop : Nat) :
    evalVar id t start stop = (decide (start < stop) && t.value start id.toNat) :=
  rfl

/-- **Evaluation sees only the variables of the formula**, on all windows at once. Induction on
the formula: the operands are evaluated at the same steps of both traces. -/
theorem eval_eq_of_value_eq {t₁ : Trace σ} {t₂ : Trace τ} (stop : Nat) (f : Formula)
    (h : ∀ id ∈ f.varIds, ∀ i, t₁.value i id.toNat = t₂.value i id.toNat) (start : Nat) :
    f.eval t₁ stop start = f.eval t₂ stop start := by
  induction f generalizing start with
  | const value => rfl
  | var id =>
      have hid := h id (List.mem_singleton_self id) start
      rw [eval, eval, evalVar_eq, evalVar_eq, hid]
  | neg x ih => rw [eval, eval, ih h]
  | connective op l r ihl ihr =>
      rw [varIds_connective, List.forall_mem_append] at h
      rw [eval_connective, eval_connective, ihl h.1, ihr h.2]
  | unary op I x ih => exact eval_unary_congr (ih h) op I start
  | binary op l I r ihl ihr =>
      rw [varIds_binary, List.forall_mem_append] at h
      exact eval_binary_congr (ihl h.1) (ihr h.2) op I start

/-- Traces of one length whose steps give the variables of a formula the same values give the
formula the same value on every window. -/
theorem evaluateWindow_eq_of_value_eq (f : Formula) {t₁ : Trace σ} {t₂ : Trace τ}
    (hsize : t₁.size = t₂.size)
    (h : ∀ i < t₁.size, ∀ id ∈ f.varIds, t₁.value i id.toNat = t₂.value i id.toNat)
    (start stop : Nat) : f.evaluateWindow t₁ start stop = f.evaluateWindow t₂ start stop := by
  rw [evaluateWindow, evaluateWindow, hsize]
  refine eval_eq_of_value_eq _ f (fun id hid i => ?_) _
  obtain hi | hi := Nat.lt_or_ge i t₁.size
  · exact h i hi id hid
  · rw [Trace.value_eq_false hi, Trace.value_eq_false (hsize ▸ hi)]

/-- The steps of a trace may be held in states of another type, if these give the variables of
the formula the same values. -/
theorem evaluateWindow_map_eq (f : Formula) {α : Type} (steps : List α) (g : α → σ)
    (k : α → τ)
    (h : ∀ step ∈ steps, ∀ id ∈ f.varIds,
      State.value (g step) id.toNat = State.value (k step) id.toNat)
    (start stop : Nat) :
    f.evaluateWindow (.ofList (steps.map g)) start stop =
      f.evaluateWindow (.ofList (steps.map k)) start stop := by
  have hsize : (Trace.ofList (steps.map g)).size = (Trace.ofList (steps.map k)).size := by
    simp [Trace.ofList, Trace.size]
  refine f.evaluateWindow_eq_of_value_eq hsize (fun i _ id hid => ?_) start stop
  simp only [Trace.value, Trace.bit?, Trace.get?, Trace.ofList, List.getElem?_toArray,
    List.getElem?_map]
  cases hi : steps[i]? with
  | none => rfl
  | some step => exact h step (List.mem_of_getElem? hi) id hid

end Formula

/-! ### Texts of zeros and ones -/

namespace Text

/-- A text is **binary** if it consists of zeros and ones. -/
def IsBinary (text : String) : Prop :=
  ∀ c ∈ text.toList, c = '0' ∨ c = '1'

instance (text : String) : Decidable (IsBinary text) :=
  List.decidableBAll (fun c => c = '0' ∨ c = '1') text.toList

/-- The bits of a binary text. -/
def bits (text : String) : List Bool :=
  text.toList.map (· == '1')

/-- The step with the bits of a binary text. -/
def step (text : String) : Step :=
  ⟨bits text⟩

/-- Each character of a binary text is one byte. -/
theorem getElem?_utf8Bytes {chars : List Char} (h : ∀ c ∈ chars, c = '0' ∨ c = '1') (i : Nat) :
    (utf8Bytes chars)[i]?.map (· == '1'.toUInt8) = (chars.map (· == '1'))[i]? := by
  have hbytes : (utf8Bytes chars).map (· == '1'.toUInt8) = chars.map (· == '1') := by
    induction chars with
    | nil => rfl
    | cons c rest ih =>
        obtain ⟨hc, hrest⟩ := List.forall_mem_cons.mp h
        have htail := ih hrest
        obtain rfl | rfl := hc
        · exact congrArg (false :: ·) htail
        · exact congrArg (true :: ·) htail
  rw [← List.getElem?_map, hbytes]

/-- A binary text has the same bits as a state and as a list. -/
theorem bit?_bits {text : String} (h : IsBinary text) (id : Nat) :
    State.bit? (bits text) id = State.bit? text id :=
  ((State.bit?_string text id).trans (getElem?_utf8Bytes h id)).symm

/-- The bits of binary characters are read off one after the other. -/
theorem parseBits_eq_ok {chars : List Char} (h : ∀ c ∈ chars, c = '0' ∨ c = '1')
    (position : Nat) : Step.parseBits position chars = .ok (chars.map (· == '1')) := by
  induction chars generalizing position with
  | nil => rfl
  | cons c rest ih =>
      obtain ⟨hc, hrest⟩ := List.forall_mem_cons.mp h
      have htail := ih hrest (position + 1)
      obtain rfl | rfl := hc
      · exact congrArg (Except.map (false :: ·)) htail
      · exact congrArg (Except.map (true :: ·)) htail

/-- A binary text is read as the step of its bits. -/
theorem parse_eq_ok {text : String} (h : IsBinary text) :
    Step.parse text = .ok (step text) :=
  congrArg (Except.map Step.mk) (parseBits_eq_ok h 0)

/-- Binary texts are read as the steps of their bits. -/
theorem trace_parse_eq_ok {texts : List String} (h : ∀ text ∈ texts, IsBinary text) :
    Trace.parse texts = .ok (.ofList (texts.map step)) := by
  have hsteps : texts.mapM Step.parse = .ok (texts.map step) := by
    induction texts with
    | nil => rfl
    | cons text rest ih =>
        obtain ⟨htext, hrest⟩ := List.forall_mem_cons.mp h
        rw [List.mapM_cons, parse_eq_ok htext, ih hrest]
        rfl
  rw [Trace.parse, hsteps]
  rfl

/-- Binary texts side by side have the bits of both. -/
theorem bits_append (a b : String) : bits (a ++ b) = bits a ++ bits b := by
  rw [bits, String.toList_append, List.map_append]
  rfl

end Text

namespace Formula

open Text

/-- A formula **ignores** characters that are added behind a text if none of them is a one that
stands for one of its variables. They may be zeros, or stand for other variables. -/
def IgnoresAdded (f : Formula) (text added : String) : Prop :=
  ∀ id ∈ f.varIds, text.length ≤ id.toNat →
    added.toList[id.toNat - text.length]? ≠ some '1'

instance (f : Formula) (text added : String) : Decidable (f.IgnoresAdded text added) :=
  List.decidableBAll (fun id : UInt32 => text.length ≤ id.toNat →
    added.toList[id.toNat - text.length]? ≠ some '1') f.varIds

/-- Characters that a formula ignores do not change the values of its variables. -/
theorem IgnoresAdded.value_eq {f : Formula} {text added : String}
    (h : f.IgnoresAdded text added) (htext : IsBinary text) (hadded : IsBinary added)
    {id : UInt32} (hid : id ∈ f.varIds) :
    State.value (text ++ added) id.toNat = State.value text id.toNat := by
  have happend : IsBinary (text ++ added) := by
    rw [IsBinary, String.toList_append]
    exact List.forall_mem_append.mpr ⟨htext, hadded⟩
  have hlength : (bits text).length = text.length := by
    rw [bits, List.length_map, String.length_toList]
  have hbits : State.bit? (text ++ added) id.toNat = (bits text ++ bits added)[id.toNat]? := by
    rw [← bit?_bits happend, bits_append]
    rfl
  have hold : State.bit? text id.toNat = (bits text)[id.toNat]? := (bit?_bits htext _).symm
  rw [State.value, State.value, hbits, hold, List.getElem?_append, hlength]
  split
  · rfl
  · rename_i hbeyond
    have hnone : (bits text)[id.toNat]? = none :=
      List.getElem?_eq_none (hlength ▸ Nat.le_of_not_lt hbeyond)
    have hchar := h id hid (Nat.le_of_not_lt hbeyond)
    rw [hnone, bits, List.getElem?_map]
    -- The character there is no one, or there is none.
    cases hc : added.toList[id.toNat - text.length]? with
    | none => rfl
    | some c =>
        rw [hc] at hchar
        simpa using hchar

/-- Binary texts can be evaluated as they are, as parts of texts, as lists and as arrays of bits:
the formula has the value that it has on the steps that are read from them. -/
theorem evaluateWindow_eq_of_binary (f : Formula) {texts : List String}
    (h : ∀ text ∈ texts, IsBinary text) (start stop : Nat) :
    f.evaluateWindow (.ofList texts) start stop =
      f.evaluateWindow (.ofList (texts.map step)) start stop ∧
    f.evaluateWindow (.ofList (texts.map String.toSlice)) start stop =
      f.evaluateWindow (.ofList (texts.map step)) start stop ∧
    f.evaluateWindow (.ofList (texts.map bits)) start stop =
      f.evaluateWindow (.ofList (texts.map step)) start stop ∧
    f.evaluateWindow (.ofList (texts.map fun text => (bits text).toArray)) start stop =
      f.evaluateWindow (.ofList (texts.map step)) start stop := by
  have hstep : ∀ text ∈ texts, ∀ id : Nat, State.value text id = State.value (step text) id :=
    fun text ht id => congrArg (Option.getD · false) (bit?_bits (h text ht) id).symm
  refine ⟨?_, ?_, ?_, ?_⟩
  · have hsame := f.evaluateWindow_map_eq texts id step
      (fun text ht id _ => hstep text ht id.toNat) start stop
    rwa [List.map_id] at hsame
  · refine f.evaluateWindow_map_eq texts String.toSlice step (fun text ht id _ => ?_) start stop
    rw [← hstep text ht, State.value, State.bit?_toSlice, State.value]
  · exact f.evaluateWindow_map_eq texts bits step (fun text _ id _ => rfl) start stop
  · refine f.evaluateWindow_map_eq texts _ step (fun text _ id _ => ?_) start stop
    exact congrArg (Option.getD · false) List.getElem?_toArray

/-- Characters may be added behind binary texts that the formula ignores. -/
theorem evaluateWindow_added_eq (f : Formula) {rows : List (String × String)}
    (h : ∀ row ∈ rows, IsBinary row.1 ∧ IsBinary row.2 ∧ f.IgnoresAdded row.1 row.2)
    (start stop : Nat) :
    f.evaluateWindow (.ofList (rows.map fun row => row.1 ++ row.2)) start stop =
      f.evaluateWindow (.ofList (rows.map fun row => row.1)) start stop := by
  refine f.evaluateWindow_map_eq rows (fun row => row.1 ++ row.2) _ (fun row hrow id hid => ?_)
    start stop
  obtain ⟨htext, hadded, hignored⟩ := h row hrow
  exact hignored.value_eq htext hadded hid

/-- **Only the bits of a formula's own variables matter, whatever the type of the states.** Two
traces of one length that give these variables the same values at all steps give the formula the
same value on every window. So binary texts can be evaluated as they are, as parts of texts, as
lists or arrays of bits, or as the steps that are read from them; and characters may be added
behind them that the formula ignores. -/
theorem evaluateWindow_eq_of_relevant_bits (f : Formula) :
    (∀ {σ τ : Type} [State σ] [State τ] (t₁ : Trace σ) (t₂ : Trace τ), t₁.size = t₂.size →
      (∀ i < t₁.size, ∀ id ∈ f.varIds, t₁.value i id.toNat = t₂.value i id.toNat) →
        ∀ start stop, f.evaluateWindow t₁ start stop = f.evaluateWindow t₂ start stop) ∧
    (∀ texts : List String, (∀ text ∈ texts, IsBinary text) →
      ∃ steps, Trace.parse texts = .ok steps ∧ ∀ start stop,
        f.evaluateWindow (.ofList texts) start stop = f.evaluateWindow steps start stop ∧
        f.evaluateWindow (.ofList (texts.map String.toSlice)) start stop =
          f.evaluateWindow steps start stop ∧
        f.evaluateWindow (.ofList (texts.map bits)) start stop =
          f.evaluateWindow steps start stop ∧
        f.evaluateWindow (.ofList (texts.map fun text => (bits text).toArray)) start stop =
          f.evaluateWindow steps start stop) ∧
    (∀ rows : List (String × String),
      (∀ row ∈ rows, IsBinary row.1 ∧ IsBinary row.2 ∧ f.IgnoresAdded row.1 row.2) →
        ∀ start stop, f.evaluateWindow (.ofList (rows.map fun row => row.1 ++ row.2)) start stop =
          f.evaluateWindow (.ofList (rows.map fun row => row.1)) start stop) := by
  refine ⟨fun t₁ t₂ hsize h => f.evaluateWindow_eq_of_value_eq hsize h, fun texts htexts => ?_,
    fun rows hrows => f.evaluateWindow_added_eq hrows⟩
  exact ⟨_, trace_parse_eq_ok htexts, f.evaluateWindow_eq_of_binary htexts⟩

/-- States of two types that differ in their width and in a variable that does not occur, binary
texts, and texts behind which zeros and a foreign one are added. -/
theorem until_on_relevant_bits :
    let f : Formula := binary .until (var 0) ⟨0, 1, by decide⟩ (var 2)
    let t₁ : Trace (List Bool) := .ofList [[true], [false, true, true]]
    let t₂ : Trace String := .ofList ["110", "001"]
    t₁.size = t₂.size ∧
      (∀ i < t₁.size, ∀ id ∈ f.varIds, t₁.value i id.toNat = t₂.value i id.toNat) ∧
      f.evaluateWindow t₁ 0 2 = f.evaluateWindow t₂ 0 2 ∧
      (∀ text ∈ ["110", "001"], IsBinary text) ∧
      (∃ steps, Trace.parse ["110", "001"] = .ok steps ∧
        f.evaluateWindow t₂ 0 2 = f.evaluateWindow steps 0 2) ∧
      (∀ row ∈ [("1", "10"), ("001", "")],
        IsBinary row.1 ∧ IsBinary row.2 ∧ f.IgnoresAdded row.1 row.2) ∧
      f.evaluateWindow (.ofList ["1" ++ "10", "001" ++ ""]) 0 2 =
        f.evaluateWindow (.ofList ["1", "001"]) 0 2 := by
  intro f t₁ t₂
  obtain ⟨htraces, htexts, hrows⟩ := evaluateWindow_eq_of_relevant_bits f
  have hvalues : ∀ i < t₁.size, ∀ id ∈ f.varIds,
      t₁.value i id.toNat = t₂.value i id.toNat := by
    intro i hi id hid
    obtain rfl | rfl : i = 0 ∨ i = 1 := Nat.le_one_iff_eq_zero_or_eq_one.mp (Nat.le_of_lt_succ hi)
    all_goals
      obtain rfl | rfl : id = 0 ∨ id = 2 := List.mem_pair.mp hid
      all_goals decide +kernel
  have hbinary : ∀ text ∈ ["110", "001"], IsBinary text := by decide +kernel
  have hignored : ∀ row ∈ [("1", "10"), ("001", "")],
      IsBinary row.1 ∧ IsBinary row.2 ∧ f.IgnoresAdded row.1 row.2 := by decide +kernel
  obtain ⟨steps, hsteps, hsame⟩ := htexts _ hbinary
  exact ⟨rfl, hvalues, htraces t₁ t₂ rfl hvalues 0 2, hbinary,
    ⟨steps, hsteps, (hsame 0 2).1⟩, hignored, hrows _ hignored 0 2⟩

end Formula

end MissionTime
