/-!
# Texts as Bytes

The UTF-8 form of a text. Positions in a text are measured in its bytes.

## Main definitions

* `utf8Bytes` — the bytes of a text;
* `utf8Width` — the number of these bytes.

A string holds its bytes ready, and they are the bytes of its characters
(`toUTF8_eq_utf8Bytes`).
-/

namespace MissionTime.Text

/-- The bytes of a text in UTF-8. -/
def utf8Bytes (text : List Char) : List UInt8 :=
  text.flatMap String.utf8EncodeChar

/-- The number of bytes that a text takes in UTF-8. -/
def utf8Width : List Char → Nat
  | [] => 0
  | c :: rest => c.utf8Size + utf8Width rest

/-- The width of a text is the number of its bytes. -/
theorem length_utf8Bytes (text : List Char) : (utf8Bytes text).length = utf8Width text := by
  induction text with
  | nil => rfl
  | cons c rest ih =>
    simp only [utf8Bytes, List.flatMap_cons, List.length_append,
      String.length_utf8EncodeChar, utf8Width]
    exact congrArg _ ih

/-- The width of texts in a row is the sum of their widths. -/
theorem utf8Width_append (a b : List Char) :
    utf8Width (a ++ b) = utf8Width a + utf8Width b := by
  induction a with
  | nil => simp [utf8Width]
  | cons c rest ih => simp [utf8Width, ih, Nat.add_assoc]

/-- A text that is not empty takes some bytes. -/
theorem utf8Width_pos {text : List Char} (h : text ≠ []) : 0 < utf8Width text := by
  cases text with
  | nil => exact absurd rfl h
  | cons c rest => exact Nat.add_pos_left c.utf8Size_pos _

/-- The bytes of a string are those of its characters. -/
theorem toUTF8_eq_utf8Bytes (text : String) :
    text.toUTF8 = (utf8Bytes text.toList).toByteArray := by
  rw [String.toUTF8_eq_toByteArray, ← String.utf8Encode_toList]
  rfl

/-- The byte of a string at a position is that of its characters. -/
theorem getElem?_toUTF8 (text : String) (i : Nat) :
    text.toUTF8[i]? = (utf8Bytes text.toList)[i]? := by
  rw [toUTF8_eq_utf8Bytes]
  simp only [getElem?_def, List.size_toByteArray, List.getElem_toByteArray]

/-- The size of a string is the width of its characters. -/
theorem utf8ByteSize_eq_utf8Width (text : String) :
    text.utf8ByteSize = utf8Width text.toList := by
  rw [← String.size_toByteArray, ← String.toUTF8_eq_toByteArray, toUTF8_eq_utf8Bytes,
    List.size_toByteArray, length_utf8Bytes]

end MissionTime.Text
