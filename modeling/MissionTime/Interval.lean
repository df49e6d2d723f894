/-!
# Closed Intervals of Step Offsets

A temporal operator looks at the steps whose distance from the present lies in a closed
interval. Bounds are 64-bit words, and an interval carries the proof that its bounds are in
order, so neither building nor editing one can invert it.

## Main definitions

* `Interval` — a lower and an upper offset, in order;
* `Interval.of` — the interval with the given bounds, or the pair that is not one;
* `Edited` — what an edit leaves behind, with its answer;
* `Interval.attempt`, `Interval.edit` — one or both bounds replaced, under the same check;
* `Interval.window` — the steps of a window `[start, stop)` that the interval covers.
-/

namespace MissionTime

/-! ### Step positions -/

/-- The last position of a step: positions are 64-bit words. -/
def lastStep : Nat := UInt64.size - 1

example : lastStep = 2 ^ 64 - 1 := rfl

/-- The position `offset` steps after `step`, or the last position if there is none. -/
def stepAfter (step offset : Nat) : Nat :=
  min (step + offset) lastStep

/-! ### Edits -/

/-- The outcome of an edit: what was edited, as it is afterwards, and the answer. -/
structure Edited (σ α : Type) where
  state : σ
  answer : α
  deriving DecidableEq

/-! ### Intervals -/

/-- Two bounds that are not in order: the pair that was attempted. -/
structure BoundsError where
  lower : UInt64
  upper : UInt64
  deriving DecidableEq

/-- The wording of a refused pair of bounds. -/
def BoundsError.message (e : BoundsError) : String :=
  s!"lower bound {e.lower} is greater than upper bound {e.upper}"

/-- A closed interval of step offsets. -/
structure Interval where
  lower : UInt64
  upper : UInt64
  lower_le_upper : lower ≤ upper
  deriving DecidableEq

namespace Interval

/-- The interval from `lower` to `upper`; bounds out of order are refused. -/
def of (lower upper : UInt64) : Except BoundsError Interval :=
  if h : lower ≤ upper then .ok ⟨lower, upper, h⟩ else .error ⟨lower, upper⟩

/-- The interval that holds a single offset. -/
def point (step : UInt64) : Interval :=
  ⟨step, step, UInt64.le_refl step⟩

/-- Intervals are ordered by their lower bounds, then by their upper bounds. -/
instance : Ord Interval where
  compare I J := (compare I.lower J.lower).then (compare I.upper J.upper)

/-! ### Editing the bounds -/

/-- A change of one bound, the other being kept, or of both at once. -/
inductive BoundsEdit where
  | lower (bound : UInt64)
  | upper (bound : UInt64)
  | both (lower upper : UInt64)
  deriving DecidableEq

/-- The interval that an edit asks for. What is checked is the pair of bounds that would
result. -/
def attempt (I : Interval) : BoundsEdit → Except BoundsError Interval
  | .lower bound => of bound I.upper
  | .upper bound => of I.lower bound
  | .both lower upper => of lower upper

/-- Edits an interval, which answers with what it was before; of this, the caller who sets one
bound is told that bound. If the bounds are refused, the interval stays as it was. -/
def edit (I : Interval) (e : BoundsEdit) : Edited Interval (Except BoundsError Interval) :=
  match I.attempt e with
  | .error error => ⟨I, .error error⟩
  | .ok J => ⟨J, .ok I⟩

/-! ### Intervals on a window of a trace -/

/-- A window reaches an interval if it contains the step at the lower offset. -/
def reachedBy (I : Interval) (start stop : Nat) : Bool :=
  I.lower.toNat < stop - start

/-- The steps at the offsets of `I` from `start`, as far as they come before `stop`. -/
def window (I : Interval) (start stop : Nat) : List Nat :=
  let first := stepAfter start I.lower.toNat
  let beyond := min (stepAfter (stepAfter start I.upper.toNat) 1) stop
  List.range' first (beyond - first)

end Interval

end MissionTime
