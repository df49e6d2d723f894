import MissionTime.Operator
import MissionTime.Text.Blank
import MissionTime.Text.Numeral

/-!
# Tokens of the Formula Language

A text of the formula language is a sequence of tokens with blanks between them. A token is
recognised by the text it begins with, and where two tokens could begin, the longer one does.

## Main definitions

* `Token` — the tokens, with their `Token.spelling`;
* `Token.read?` — the token at the beginning of a text;
* `scan` — the tokens of a text, each with the text that begins with it, and the text at which
  no further token begins.
-/

namespace MissionTime.Syntax

open Text

/-- A token of the formula language. -/
inductive Token where
  | constant (value : Bool)
  | variable (id : Numeral)
  | number (value : Numeral)
  | negation
  | connective (op : Connective)
  | unary (op : UnaryTemporal)
  | binary (op : BinaryTemporal)
  | openParen
  | closeParen
  | openBracket
  | closeBracket
  | comma
  deriving DecidableEq

namespace Token

/-- The characters of a token. -/
def spelling : Token → List Char
  | .constant true => "true".toList
  | .constant false => "false".toList
  | .variable id => 'p' :: id.digits
  | .number value => value.digits
  | .negation => negationSymbol.toList
  | .connective op => op.symbol.toList
  | .unary op => op.symbol.toList
  | .binary op => op.symbol.toList
  | .openParen => ['(']
  | .closeParen => [')']
  | .openBracket => ['[']
  | .closeBracket => [']']
  | .comma => [',']

/-- The tokens with a single spelling. None of these spellings begins another, so their order
does not matter. -/
def fixed : List Token :=
  [.connective .equiv, .connective .implies, .constant true, .constant false, .negation,
    .connective .and, .connective .xor, .connective .or, .unary .finally, .unary .globally,
    .binary .until, .binary .release, .openParen, .closeParen, .openBracket, .closeBracket,
    .comma]

/-! ### Reading -/

/-- The token of a fixed spelling at the beginning of a text, and the text after it. -/
def readFixed? (text : List Char) : Option (Token × List Char) :=
  (fixed.find? fun t => t.spelling.isPrefixOf text).map fun t =>
    (t, text.drop t.spelling.length)

/-- The variable or number at the beginning of a text, and the text after it. -/
def readNumeral? : List Char → Option (Token × List Char)
  | 'p' :: text => (Numeral.read? text).map fun (id, rest) => (.variable id, rest)
  | text => (Numeral.read? text).map fun (value, rest) => (.number value, rest)

/-- The token at the beginning of a text, and the text after it. -/
def read? (text : List Char) : Option (Token × List Char) :=
  readFixed? text <|> readNumeral? text

/-! ### A token that is read is the beginning of the text -/

theorem spelling_append_of_readFixed? {text rest : List Char} {t : Token}
    (h : readFixed? text = some (t, rest)) : t.spelling ++ rest = text := by
  obtain ⟨u, hu, hp⟩ := Option.map_eq_some_iff.mp h
  cases hp
  have hp : t.spelling.isPrefixOf text = true := by simpa using List.find?_some hu
  exact List.prefix_iff_eq_append.mp (List.isPrefixOf_iff_prefix.mp hp)

theorem spelling_append_of_readNumeral? {text rest : List Char} {t : Token}
    (h : readNumeral? text = some (t, rest)) : t.spelling ++ rest = text := by
  unfold readNumeral? at h
  split at h <;> obtain ⟨⟨n, r⟩, hn, hp⟩ := Option.map_eq_some_iff.mp h <;> cases hp
  · exact congrArg _ (Numeral.digits_append_of_read? hn)
  · exact Numeral.digits_append_of_read? hn

/-- A token that is read and what follows it make up the text. -/
theorem spelling_append_of_read? {text rest : List Char} {t : Token}
    (h : read? text = some (t, rest)) : t.spelling ++ rest = text := by
  unfold read? at h
  cases hf : readFixed? text with
  | some p =>
    simp only [hf, Option.orElse_eq_orElse, Option.orElse_some] at h
    exact spelling_append_of_readFixed? (hf.trans h)
  | none =>
    simp only [hf, Option.orElse_eq_orElse, Option.orElse_none] at h
    exact spelling_append_of_readNumeral? h

/-- Every token has at least one character. -/
theorem spelling_ne_nil (t : Token) : t.spelling ≠ [] := by
  cases t with
  | constant value => cases value <;> simp [spelling]
  | number value => exact value.digits_ne_nil
  | connective op => cases op <;> simp [spelling, Connective.symbol]
  | unary op => cases op <;> simp [spelling, UnaryTemporal.symbol]
  | binary op => cases op <;> simp [spelling, BinaryTemporal.symbol]
  | _ => simp [spelling, negationSymbol]

/-- A token that is read shortens the text. -/
theorem length_lt_of_read? {text rest : List Char} {t : Token}
    (h : read? text = some (t, rest)) : rest.length < text.length := by
  have ht := List.length_pos_iff.mpr t.spelling_ne_nil
  rw [← spelling_append_of_read? h, List.length_append]
  omega

end Token

/-! ### The tokens of a text -/

/-- A token where it stands: the token, and the text from its first character on. -/
structure Lexeme where
  token : Token
  text : List Char
  deriving DecidableEq

/-- A text divided into tokens as far as it goes: the tokens, and the text, without the blanks
before it, at which no token begins. -/
structure Scan where
  lexemes : List Lexeme
  tail : List Char
  deriving DecidableEq

/-- Divides a text into tokens. -/
def scan (text : List Char) : Scan :=
  match h : Token.read? (skipBlanks text) with
  | none => ⟨[], skipBlanks text⟩
  | some (token, rest) =>
    have : rest.length < text.length :=
      Nat.lt_of_lt_of_le (Token.length_lt_of_read? h) (length_skipBlanks_le text)
    let following := scan rest
    ⟨⟨token, skipBlanks text⟩ :: following.lexemes, following.tail⟩
termination_by text.length

namespace Scan

/-- The tokens alone. -/
def tokens (s : Scan) : List Token :=
  s.lexemes.map Lexeme.token

/-- The text from the point at which a given number of tokens is left. -/
def textBefore (s : Scan) (remaining : Nat) : List Char :=
  match (s.lexemes.drop (s.lexemes.length - remaining)).head? with
  | some lexeme => lexeme.text
  | none => s.tail

end Scan

end MissionTime.Syntax
