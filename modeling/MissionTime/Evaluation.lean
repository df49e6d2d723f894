import MissionTime.Formula
import MissionTime.Trace

/-!
# Evaluation of Formulas

A formula is evaluated on a window `[start, stop)` of a trace. The propositional operators
combine the values of their operands on the same window. The temporal operators evaluate their
operands on the windows `[i, stop)`, where `i` ranges over the steps of the window that the
interval covers. If the window does not reach the interval, `finally` and `until` are false,
and `globally` and `release` are true.

An operand is evaluated only where the value depends on it: `and`, `or` and `implies` do without
their right operand if the left one decides. This matters for operands that are temporal, for
each level of them multiplies the number of windows.

## Main definitions

* `Connective.eval` — the truth table of a connective;
* `Formula.eval` — the value on a window within the trace;
* `Formula.evaluateWindow` — the value on any window, cut to the trace;
* `Formula.evaluate` — the value on the whole trace.
-/

namespace MissionTime

/-- The truth table of a connective. -/
def Connective.eval : Connective → Bool → Bool → Bool
  | .and, a, b => a && b
  | .xor, a, b => a != b
  | .or, a, b => a || b
  | .implies, a, b => !a || b
  | .equiv, a, b => a == b

namespace Formula

variable {σ τ : Type} [State σ] [State τ]

/-- The value of a variable on a window: its bit at the first step. There is none on an empty
window or outside the width of the state, and then the variable is false. -/
def evalVar (id : UInt32) (t : Trace σ) (start stop : Nat) : Bool :=
  start < stop && ((t.get? start).bind fun state => State.bit? state id.toNat).getD false

/-- The value of a formula on the window `[start, stop)` of a trace, for
`start ≤ stop ≤ t.size`. -/
def eval (t : Trace σ) (stop : Nat) : Formula → Nat → Bool
  | const value, _ => value
  | var id, start => evalVar id t start stop
  | neg x, start => !x.eval t stop start
  | connective .and l r, start => l.eval t stop start && r.eval t stop start
  | connective .xor l r, start => l.eval t stop start != r.eval t stop start
  | connective .or l r, start => l.eval t stop start || r.eval t stop start
  | connective .implies l r, start => !l.eval t stop start || r.eval t stop start
  | connective .equiv l r, start => l.eval t stop start == r.eval t stop start
  | unary .finally I x, start =>
    I.reachedBy start stop && (I.window start stop).any fun i => x.eval t stop i
  | unary .globally I x, start =>
    !I.reachedBy start stop || (I.window start stop).all fun i => x.eval t stop i
  | binary .until l I r, start =>
    I.reachedBy start stop &&
      match (I.window start stop).find? fun i => r.eval t stop i with
      | some first => (I.window start first).all fun i => l.eval t stop i
      | none => false
  | binary .release l I r, start =>
    !I.reachedBy start stop ||
      match (I.window start stop).find? fun i => !r.eval t stop i with
      | some failing => (I.window start failing).any fun i => l.eval t stop i
      | none => true

/-- A connective combines the values of its operands by its truth table. -/
theorem eval_connective (t : Trace σ) (stop start : Nat) (op : Connective) (l r : Formula) :
    (connective op l r).eval t stop start =
      op.eval (l.eval t stop start) (r.eval t stop start) := by
  cases op <;> rfl

/-- Under a unary temporal operator, operands can be exchanged that have the same value at all
starts, also on windows of different traces. -/
theorem eval_unary_congr {t₁ : Trace σ} {t₂ : Trace τ} {stop : Nat} {x y : Formula}
    (h : ∀ i, x.eval t₁ stop i = y.eval t₂ stop i) (op : UnaryTemporal) (I : Interval)
    (start : Nat) : (unary op I x).eval t₁ stop start = (unary op I y).eval t₂ stop start := by
  cases op <;> simp only [eval, h]

/-- The same under a binary temporal operator. -/
theorem eval_binary_congr {t₁ : Trace σ} {t₂ : Trace τ} {stop : Nat} {l l' r r' : Formula}
    (hl : ∀ i, l.eval t₁ stop i = l'.eval t₂ stop i)
    (hr : ∀ i, r.eval t₁ stop i = r'.eval t₂ stop i) (op : BinaryTemporal) (I : Interval)
    (start : Nat) :
    (binary op l I r).eval t₁ stop start = (binary op l' I r').eval t₂ stop start := by
  cases op <;> simp only [eval, hl, hr]

/-- The value of a formula on the window `[start, stop)` of a trace. A window that goes past
the end of the trace ends there, and one whose bounds are not in order is empty. -/
def evaluateWindow (f : Formula) (t : Trace σ) (start stop : Nat) : Bool :=
  let stop := min stop t.size
  f.eval t stop (min start stop)

/-- The value of a formula on a trace. -/
def evaluate (f : Formula) (t : Trace σ) : Bool :=
  f.evaluateWindow t 0 t.size

end Formula

end MissionTime
