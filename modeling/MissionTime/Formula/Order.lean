import MissionTime.Formula

/-!
# The Order of Formulas

Formulas are ordered by the kind of their outermost node. Leaves of one kind follow their
payload, and operators of one kind compare their operands from left to right and then their
intervals.

## Main definitions

* `Formula.compare` — the order;
* `Formula.sort` — a list of formulas in ascending order.
-/

namespace MissionTime.Formula

/-- The order of formulas. -/
def compare : Formula → Formula → Ordering
  | const a, const b => Ord.compare a b
  | var i, var j => Ord.compare i j
  | neg x, neg y => x.compare y
  | connective o l r, connective o' l' r' =>
    (Ord.compare o o').then ((l.compare l').then (r.compare r'))
  | unary o I x, unary o' J y =>
    (Ord.compare o o').then ((x.compare y).then (Ord.compare I J))
  | binary o l I r, binary o' l' J r' =>
    (Ord.compare o o').then
      ((l.compare l').then ((r.compare r').then (Ord.compare I J)))
  | f, g => Ord.compare f.kind g.kind

/-- Formulas are ordered by `Formula.compare`. -/
instance : Ord Formula := ⟨Formula.compare⟩

/-- The formulas of a list in ascending order. -/
def sort (fs : List Formula) : List Formula :=
  fs.mergeSort fun f g => (f.compare g).isLE

end MissionTime.Formula
