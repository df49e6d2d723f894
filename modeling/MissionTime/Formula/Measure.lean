import MissionTime.Formula

/-!
# Measures of a Formula

How large a formula is, how deep, how often each kind of node occurs in it, and how many steps
of a trace it can depend on.

## Main definitions

* `Formula.size`, `Formula.depth`, `Formula.count` — counts of nodes and edges;
* `Formula.futureReach` — the number of steps after which nothing matters to the formula.
-/

namespace MissionTime.Formula

/-- The number of nodes. -/
def size : Formula → Nat
  | const _ | var _ => 1
  | neg x | unary _ _ x => 1 + x.size
  | connective _ l r | binary _ l _ r => 1 + l.size + r.size

/-- The number of edges on a longest path from the root to a leaf. -/
def depth : Formula → Nat
  | const _ | var _ => 0
  | neg x | unary _ _ x => 1 + x.depth
  | connective _ l r | binary _ l _ r => 1 + max l.depth r.depth

/-- The number of nodes of a given kind. -/
def count (k : Kind) : Formula → Nat
  | const _ => if Kind.constant = k then 1 else 0
  | var _ => if Kind.variable = k then 1 else 0
  | neg x => (if Kind.negation = k then 1 else 0) + x.count k
  | connective op l r => (if op.kind = k then 1 else 0) + l.count k + r.count k
  | unary op _ x => (if op.kind = k then 1 else 0) + x.count k
  | binary op l _ r => (if op.kind = k then 1 else 0) + l.count k + r.count k

/-- The number of steps, from the present one on, that the formula may examine, cut off at the
last step. The left operand of a binary temporal operator is examined only before the last
step of its interval, which is why its reach counts one step less there. -/
def futureReach : Formula → Nat
  | const _ => 0
  | var _ => 1
  | neg x => x.futureReach
  | connective _ l r => max l.futureReach r.futureReach
  | unary _ I x => stepAfter I.upper.toNat x.futureReach
  | binary _ l I r =>
    let left := l.futureReach
    let right := r.futureReach
    stepAfter I.upper.toNat (if left > right then left - 1 else right)

end MissionTime.Formula
