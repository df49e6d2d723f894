import MissionTime.Text.Utf8

/-!
# States

A state gives truth values to the variables at one step of a trace. It may leave variables out,
and these count as false where a formula is evaluated.

## Main definitions

* `State` — the types of states, with their width and their bits.
-/

namespace MissionTime

/-- The types whose values are states. -/
class State (σ : Type) where
  /-- The number of variables that have a value. -/
  width : σ → Nat
  /-- The value of a variable, if it has one. -/
  bit? : σ → Nat → Option Bool

/-- A text is a state through the bytes of its UTF-8 form: the byte of `1` is true and every
other byte is false. -/
instance : State String where
  width text := text.utf8ByteSize
  bit? text id := text.toUTF8[id]?.map (· == '1'.toUInt8)

/-- A part of a text is a state as a text of its own. -/
instance : State String.Slice where
  width part := State.width part.copy
  bit? part id := State.bit? part.copy id

/-- The width of a text is the width of its characters. -/
theorem State.width_string (text : String) :
    State.width text = Text.utf8Width text.toList :=
  Text.utf8ByteSize_eq_utf8Width text

/-- The bits of a text are read from the bytes of its characters. -/
theorem State.bit?_string (text : String) (id : Nat) :
    State.bit? text id = (Text.utf8Bytes text.toList)[id]?.map (· == '1'.toUInt8) :=
  congrArg (Option.map (· == '1'.toUInt8)) (Text.getElem?_toUTF8 text id)

/-- The bits of a text are those of the part that is all of it. -/
theorem State.bit?_toSlice (text : String) (id : Nat) :
    State.bit? text.toSlice id = State.bit? text id := by
  have hpart : State.bit? text.toSlice id = State.bit? text.toSlice.copy id := rfl
  rw [hpart, String.copy_toSlice]

/-- A list of bits is a state. -/
instance : State (List Bool) where
  width bits := bits.length
  bit? bits id := bits[id]?

/-- An array of bits is a state. -/
instance : State (Array Bool) where
  width bits := bits.size
  bit? bits id := bits[id]?

end MissionTime
