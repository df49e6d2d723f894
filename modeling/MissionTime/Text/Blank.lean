import MissionTime.Text.CodeRange

/-!
# Blanks and White Space

Two sets of characters separate words. Between the tokens of a formula stand *blanks*, of which
there are four. *White space* is the set of all characters with the Unicode property
`White_Space`; every blank is white space.

## Main definitions

* `isBlank`, `skipBlanks` — the blanks, and a text without the blanks it begins with;
* `isWhiteSpace`, `skipWhiteSpace` — the same for white space.
-/

namespace MissionTime.Text

/-! ### Blanks -/

/-- The blanks are the space, the tab, the carriage return and the line feed. -/
def isBlank (c : Char) : Bool :=
  c == ' ' || c == '\t' || c == '\r' || c == '\n'

/-- A text from its first character that is no blank. -/
def skipBlanks (text : List Char) : List Char :=
  text.dropWhile isBlank

theorem length_skipBlanks_le (text : List Char) : (skipBlanks text).length ≤ text.length :=
  (List.dropWhile_sublist isBlank).length_le

/-! ### White space -/

/-- The code points with the Unicode property `White_Space`. -/
def whiteSpaceRanges : List CodeRange :=
  [⟨0x9, 0xd⟩, ⟨0x20, 0x20⟩, ⟨0x85, 0x85⟩, ⟨0xa0, 0xa0⟩, ⟨0x1680, 0x1680⟩, ⟨0x2000, 0x200a⟩,
    ⟨0x2028, 0x2029⟩, ⟨0x202f, 0x202f⟩, ⟨0x205f, 0x205f⟩, ⟨0x3000, 0x3000⟩]

/-- The characters with the Unicode property `White_Space`. -/
def isWhiteSpace (c : Char) : Bool :=
  covered whiteSpaceRanges c

/-- A text from its first character that is no white space. -/
def skipWhiteSpace (text : List Char) : List Char :=
  text.dropWhile isWhiteSpace

/-- Every blank is white space. -/
theorem isWhiteSpace_of_isBlank {c : Char} (h : isBlank c) : isWhiteSpace c := by
  simp only [isBlank, Bool.or_eq_true, beq_iff_eq] at h
  rcases h with ((rfl | rfl) | rfl) | rfl <;> decide

end MissionTime.Text
