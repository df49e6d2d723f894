import MissionTime.Text.GraphemeExtend
import MissionTime.Text.Unprintable

/-!
# Quoted Characters and Texts

In messages a character stands between single quotes and a text between double quotes. The
escapes make every quotation readable: the quote in use, the backslash and the usual control
characters are written with a backslash, and characters that would not show by themselves are
written by their code point.

## Main definitions

* `isHalfwidthSoundMark` — the combining marks that are drawn in a cell of their own;
* `escape` — a character as it is written between given quotes;
* `quotedChar`, `quotedText` — a character and a text in their quotes.
-/

namespace MissionTime.Text

/-- The escape by the code point of a character, in lower-case hexadecimal digits. -/
def codePointEscape (c : Char) : List Char :=
  ['\\', 'u', '\x7b'] ++ Nat.toDigits 16 c.toNat ++ ['\x7d']

/-- The voiced and the semi-voiced sound mark of halfwidth katakana. They extend the character
before them, but each is drawn in a cell of its own and so shows by itself. -/
def isHalfwidthSoundMark (c : Char) : Bool :=
  c == '\uff9e' || c == '\uff9f'

/-- A character as it is written between quotes. -/
def escape (quote c : Char) : List Char :=
  if c == '\x00' then ['\\', '0']
  else if c == '\t' then ['\\', 't']
  else if c == '\r' then ['\\', 'r']
  else if c == '\n' then ['\\', 'n']
  else if c == '\\' || c == quote then ['\\', c]
  else if isHalfwidthSoundMark c then [c]
  else if isGraphemeExtend c || isUnprintable c then codePointEscape c
  else [c]

/-- A character between single quotes. -/
def quotedChar (c : Char) : String :=
  String.ofList (['\''] ++ escape '\'' c ++ ['\''])

/-- A text between double quotes. -/
def quotedText (text : String) : String :=
  String.ofList (['"'] ++ text.toList.flatMap (escape '"') ++ ['"'])

end MissionTime.Text
