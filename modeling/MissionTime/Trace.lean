import MissionTime.Step

/-!
# Traces

A trace is a finite sequence of states, one for each step in time.

## Main definitions

* `Trace` — the traces over a type of states;
* `Trace.push`, `Trace.get?`, `Trace.index`, `Trace.slice`, `Trace.reverse` — their operations;
* `Trace.parse` — the trace of the steps with given texts.
-/

namespace MissionTime

/-- A finite sequence of states. -/
structure Trace (σ : Type) where
  states : Array σ
  deriving DecidableEq

/-- An access to a step that a trace does not have. -/
structure IndexError where
  length : Nat
  index : Nat
  deriving DecidableEq

/-- The wording of an access out of range. -/
def IndexError.message (e : IndexError) : String :=
  s!"index out of bounds: the len is {e.length} but the index is {e.index}"

namespace Trace

variable {σ : Type}

/-- The trace without steps. -/
def empty : Trace σ := ⟨#[]⟩

/-- The trace of the given states. -/
def ofList (states : List σ) : Trace σ := ⟨states.toArray⟩

/-- The states of a trace in order. -/
def toList (t : Trace σ) : List σ := t.states.toList

/-- The number of steps. -/
def size (t : Trace σ) : Nat := t.states.size

/-- One more step at the end. -/
def push (t : Trace σ) (state : σ) : Trace σ := ⟨t.states.push state⟩

/-- The state at a step, if there is one. -/
def get? (t : Trace σ) (i : Nat) : Option σ := t.states[i]?

/-- The state at a step, where a step out of range is an error. -/
def index (t : Trace σ) (i : Nat) : Except IndexError σ :=
  match t.get? i with
  | some state => .ok state
  | none => .error ⟨t.size, i⟩

/-- The steps from `start` up to but not including `stop`. -/
def slice (t : Trace σ) (start stop : Nat) : Trace σ := ⟨t.states.extract start stop⟩

/-- The steps in reverse order. -/
def reverse (t : Trace σ) : Trace σ := ⟨t.states.reverse⟩

/-- The largest width of a state, or zero if there is none. -/
def width [State σ] (t : Trace σ) : Nat :=
  t.states.foldl (fun widest state => max widest (State.width state)) 0

/-- The trace of the steps with the given texts, or the error of the first text that is not
the text of a step. -/
def parse (texts : List String) : Except StepError (Trace Step) :=
  ofList <$> texts.mapM Step.parse

end Trace

end MissionTime
