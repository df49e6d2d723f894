import MissionTime.Syntax.Reading
import MissionTime.Text.Quoted
import MissionTime.Text.Utf8

/-!
# Errors of Reading a Formula

A text that is no formula is answered by the place where reading stopped, as an offset in bytes
of UTF-8, and the reason. Before an offset is taken, white space of any kind is skipped, so that
the offset is that of a visible character or of the end of the text.

## Main definitions

* `ParseError` — an offset and a reason;
* `ParseError.category`, `ParseError.message` — how an error is classified and worded;
* `ParseError.ofFailure` — the error for the failure to read the tokens of a text.
-/

namespace MissionTime

open Text Syntax

/-! ### Errors and their wording -/

/-- Why a text is no formula. -/
inductive ParseError.Reason where
  /-- A word that belongs to no token. -/
  | unknownWord (word : List Char)
  /-- A character that begins no token. -/
  | unknownCharacter (c : Char)
  /-- A `p` without the number of a variable. -/
  | missingId
  | variableTooLarge (id : Numeral)
  | integerTooLarge (value : Numeral)
  /-- A token, or the end of the text, where something else is needed. -/
  | expected (what : Expectation) (found : Option Token)
  /-- A token, or the end of the text, after a complete formula. -/
  | unexpected (found : Option Token)
  /-- More levels of nesting than `Syntax.nestingLimit`. -/
  | tooDeep
  /-- An interval whose bounds are not in order. -/
  | bounds (error : BoundsError)
  deriving DecidableEq

/-- The error of a text that is no formula. -/
structure ParseError where
  offset : Nat
  reason : ParseError.Reason
  deriving DecidableEq

/-- The classes of errors. -/
inductive ParseError.Category where
  /-- A part of the text is no token, or a number is out of range. -/
  | lexical
  /-- The tokens do not form a formula. -/
  | grammatical
  /-- The bounds of an interval are not in order. -/
  | bounds
  deriving DecidableEq

namespace ParseError

/-- The class of an error. -/
def category (e : ParseError) : Category :=
  match e.reason with
  | .unknownWord _ | .unknownCharacter _ | .missingId => .lexical
  | .variableTooLarge _ | .integerTooLarge _ => .lexical
  | .expected _ _ | .unexpected _ | .tooDeep => .grammatical
  | .bounds _ => .bounds

/-- What was found, in words. -/
def foundText : Option Token → String
  | some token => s!"'{String.ofList token.spelling}'"
  | none => "end of input"

/-- A reason in words. -/
def Reason.message : Reason → String
  | unknownWord word => s!"unrecognized token '{String.ofList word}'"
  | unknownCharacter c => s!"unrecognized character {quotedChar c}"
  | missingId => "expected a numeric variable id after 'p'"
  | variableTooLarge id => s!"variable id {String.ofList id.digits} is too large"
  | integerTooLarge value => s!"integer {String.ofList value.digits} is too large"
  | expected what found => s!"expected {what.text}, found {foundText found}"
  | unexpected found => s!"unexpected {foundText found}"
  | tooDeep => s!"formula nested too deeply, the limit is {nestingLimit} levels"
  | bounds error => error.message

/-- The wording of an error. -/
def message (e : ParseError) : String :=
  match e.category with
  | .lexical => s!"lexical error at offset {e.offset}: {e.reason.message}"
  | .grammatical => s!"syntax error at offset {e.offset}: {e.reason.message}"
  | .bounds => s!"invalid interval at offset {e.offset}: {e.reason.message}"

/-! ### From failures to errors -/

/-- What stands at the beginning of a text: a token or its end, if it is one of these, and else
the reason why there is no token. -/
def found (text : List Char) : Except Reason (Option Token) :=
  match Token.read? text, text with
  | some (token, _), _ => .ok (some token)
  | none, [] => .ok none
  | none, c :: _ =>
    if c.isAlphanum then .error (.unknownWord (text.takeWhile fun d => d.isAlphanum || d == '_'))
    else .error (.unknownCharacter c)

/-- The reason why the reading of a text failed. `place` is the text from the first character
that could not be read, and `visible` is the same without white space before it. A `p` that
stands right where a formula or an operand is needed is taken for a variable. -/
def diagnose (cause : Failure.Cause) (place visible : List Char) : Reason :=
  let described (describe : Option Token → Reason) : Reason :=
    match found visible with
    | .ok token => describe token
    | .error reason => reason
  match cause with
  | .expected what =>
    if (what = .formula ∨ what = .operand) ∧ place.head? = some 'p'
        ∧ Token.read? place = none then .missingId
    else described (.expected what)
  | .trailing => described .unexpected
  | .variableTooLarge id => .variableTooLarge id
  | .integerTooLarge value => .integerTooLarge value
  | .bounds error => .bounds error
  | .tooDeep => .tooDeep

/-- The error for a failure to read the tokens of a text. -/
def ofFailure (text : List Char) (failure : Failure) : ParseError :=
  let place := (scan text).textBefore failure.rest.length
  let visible := skipWhiteSpace place
  ⟨utf8Width text - utf8Width visible, diagnose failure.cause place visible⟩

end ParseError

end MissionTime
