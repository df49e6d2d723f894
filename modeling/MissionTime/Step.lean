import MissionTime.State
import MissionTime.Text.Quoted

/-!
# Steps

A step is a state that has been checked: a sequence of bits, written with the characters `0`
and `1`, the bit of variable 0 first.

## Main definitions

* `Step` — sequences of bits, with `Step.text` and the order of those texts;
* `Step.parse` — the step with a given text;
* `Step.ofNat` — the binary digits of a number, in a given width.
-/

namespace MissionTime

/-- A sequence of bits. -/
structure Step where
  bits : List Bool
  deriving DecidableEq

/-- A character of a text that is neither `0` nor `1`, and its position in characters. -/
structure StepError where
  position : Nat
  found : Char
  deriving DecidableEq

/-- The wording of a refused text. -/
def StepError.message (e : StepError) : String :=
  s!"invalid character {Text.quotedChar e.found} at position {e.position} of step, " ++
    "expected '0' or '1'"

namespace Step

/-- A step is the state of its bits. -/
instance : State Step where
  width s := State.width s.bits
  bit? s id := State.bit? s.bits id

/-! ### Texts -/

/-- The text of a step. -/
def text (s : Step) : String :=
  String.ofList (s.bits.map fun bit => if bit then '1' else '0')

/-- The bits of a text whose first character has the given position. -/
def parseBits (position : Nat) : List Char → Except StepError (List Bool)
  | [] => .ok []
  | '0' :: rest => (parseBits (position + 1) rest).map (false :: ·)
  | '1' :: rest => (parseBits (position + 1) rest).map (true :: ·)
  | c :: _ => .error ⟨position, c⟩

/-- The step with the given text, or the first character that stands for no bit. -/
def parse (text : String) : Except StepError Step :=
  (parseBits 0 text.toList).map Step.mk

/-! ### Numbers -/

/-- The last `width` binary digits of a number of 64 bits, the most significant first. The digits
before these 64 are zeros. -/
def ofNat (value width : Nat) : Step :=
  ⟨(List.range width).reverse.map fun shift => shift < 64 && value >>> shift &&& 1 == 1⟩

/-! ### Order -/

/-- The lexicographic order of sequences of bits; a sequence comes after its beginnings. -/
def compareBits : List Bool → List Bool → Ordering
  | [], [] => .eq
  | [], _ :: _ => .lt
  | _ :: _, [] => .gt
  | a :: as, b :: bs => (compare a b).then (compareBits as bs)

/-- Steps are ordered as sequences of bits. -/
instance : Ord Step where
  compare s t := compareBits s.bits t.bits

/-- The steps of a list in ascending order. -/
def sort (steps : List Step) : List Step :=
  steps.mergeSort fun s t => (compare s t).isLE

end Step

end MissionTime
