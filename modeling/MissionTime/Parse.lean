import MissionTime.ParseError
import MissionTime.Syntax.Expression

/-!
# Reading Formulas from Texts

A text is divided into tokens, and the tokens are read as a formula. Texts that are read one
after the other share one nesting gauge.

## Main definitions

* `parse` — the formula that a text denotes, or the error;
* `parseAll` — several texts read one after the other.
-/

namespace MissionTime

open Syntax

/-- Reads the whole of a text as a formula: all of it has to be tokens, and all tokens have to
be one formula. -/
def readText (text : List Char) : Reading Formula := do
  let s := scan text
  let f ← formula s.tokens
  unless s.tail = [] do throw ⟨[], .trailing⟩
  pure f

/-- Reads a text under a nesting gauge. -/
def parseUnder (text : String) : StateM Nat (Except ParseError Formula) := do
  return (← (readText text.toList).run).mapError (ParseError.ofFailure text.toList)

/-- The formula that a text denotes. -/
def parse (text : String) : Except ParseError Formula :=
  ((parseUnder text).run 0).1

/-- The formulas that texts denote, read one after the other. -/
def parseAll (texts : List String) : List (Except ParseError Formula) :=
  ((texts.mapM parseUnder).run 0).1

end MissionTime
