import MissionTime.Evaluation
import MissionTime.Parse
import MissionTime.Syntax.Layout

/-!
# Journal Records

What is noted down about the use of the library: each text that was read, with its outcome, and
each evaluation over a whole trace, with its result.

## Main definitions

* `Record` — a text with its severity;
* `Record.ofParse`, `Record.ofEvaluation` — the records of the two events.
-/

namespace MissionTime

/-- How important a record is. -/
inductive Severity where
  /-- Of interest for finding errors. -/
  | debug
  /-- Of interest for following a run in detail. -/
  | trace
  deriving DecidableEq

/-- The label of a severity. -/
def Severity.label : Severity → String
  | .debug => "DEBUG"
  | .trace => "TRACE"

/-- An entry of the journal. -/
structure Record where
  severity : Severity
  text : String
  deriving DecidableEq

namespace Record

/-- The record of a text that was read with the given outcome. -/
def ofParse (text : String) (outcome : Except ParseError Formula) : Record :=
  .mk .debug <|
    match outcome with
    | .ok f => s!"parsed {Text.quotedText text} into {f.canonical}"
    | .error e => s!"failed to parse {Text.quotedText text}: {e.message}"

/-- The record of an evaluation over a trace of the given number of steps. -/
def ofEvaluation (f : Formula) (value : Bool) (steps : Nat) : Record :=
  .mk .trace s!"{f.canonical} evaluated to {value} over {steps} steps"

end Record

end MissionTime
