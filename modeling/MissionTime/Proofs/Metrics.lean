import Mathlib.Tactic.Ring
import MissionTime.Proofs.Conservation

/-!
# Agreement of the Measures

The size of a formula, its depth and the numbers of its nodes of each kind are computed by
recursions of their own, and here is how they fit together. Each node has one kind, so the kinds
add up to the size. A path goes through one node more than it has edges, and a tree whose nodes
have two operands at most doubles from one level to the next, which bounds the size by the depth
from both sides. And each binary node joins two trees into one, so that there is one leaf more than
there are binary nodes.

## Main definitions

* `Formula.tally`: the number of nodes of some kinds, kind by kind.

## Main results

* `Formula.tally_eq_countP`: nodes of different kinds are different nodes.
* `Formula.depth_lt_size`, `Formula.size_lt_two_pow`: the size between bounds by the depth.
* `Formula.countP_leaf`: one leaf more than binary nodes.
* `Formula.measures_agree`: all of them together.
-/

namespace MissionTime

/-! ### Kinds -/

theorem Kind.mem_all (k : Kind) : k ∈ Kind.all := by
  cases k <;> decide

theorem Kind.nodup_all : Kind.all.Nodup := by
  decide

theorem Connective.arity_kind (op : Connective) : op.kind.arity = 2 := by
  cases op <;> rfl

theorem UnaryTemporal.arity_kind (op : UnaryTemporal) : op.kind.arity = 1 := by
  cases op <;> rfl

theorem BinaryTemporal.arity_kind (op : BinaryTemporal) : op.kind.arity = 2 := by
  cases op <;> rfl

namespace Formula

/-! ### Counting by kinds -/

/-- The number of nodes of some kinds: their numbers added up, **kind by kind**. -/
def tally (f : Formula) : List Kind → Nat
  | [] => 0
  | k :: ks => f.count k + f.tally ks

/-- What is one of some kinds, or of another one, is counted in one of two ways. -/
theorem count_add_countP_mem {k : Kind} {ks : List Kind} (h : k ∉ ks) (kinds : List Kind) :
    kinds.count k + kinds.countP (· ∈ ks) = kinds.countP (· ∈ k :: ks) := by
  induction kinds with
  | nil => rfl
  | cons kind kinds ih =>
      rw [List.count_cons, List.countP_cons, List.countP_cons, ← ih]
      by_cases hkind : kind = k
      · subst hkind
        simp only [h, List.mem_cons, true_or, decide_true, decide_false, BEq.rfl, ↓reduceIte,
          Bool.false_eq_true]
        omega
      · simp only [hkind, List.mem_cons, false_or, beq_iff_eq, ↓reduceIte]
        omega

/-- **Nodes of different kinds are different nodes**: counted kind by kind, each node is counted
once if its kind is one of these. -/
theorem tally_eq_countP {ks : List Kind} (h : ks.Nodup) (f : Formula) :
    f.tally ks = (f.preorder.map kind).countP (· ∈ ks) := by
  induction ks with
  | nil => simp [tally]
  | cons k ks ih =>
      obtain ⟨hk, hks⟩ := List.nodup_cons.mp h
      rw [tally, ih hks, count_eq_count_preorder, count_add_countP_mem hk]

/-- All kinds together are the kinds of all nodes. -/
theorem tally_all (f : Formula) : f.tally Kind.all = f.size := by
  rw [tally_eq_countP Kind.nodup_all, size_eq_length_preorder, ← List.length_map kind,
    List.countP_eq_length]
  exact fun k _ => decide_eq_true k.mem_all

/-! ### Depth and size -/

/-- On a longest path there is one node more than there are edges. -/
theorem depth_lt_size (f : Formula) : f.depth < f.size := by
  induction f with
  | const b | var i => exact Nat.one_pos
  | neg x ih | unary op I x ih =>
      rw [depth, size]
      omega
  | connective op l r ihl ihr | binary op l I r ihl ihr =>
      rw [depth, size]
      omega

/-- From one level to the next there are twice as many nodes at most. -/
theorem size_lt_two_pow (f : Formula) : f.size < 2 ^ (f.depth + 1) := by
  -- Both operands have as much room as the deeper one.
  have room {l r : Formula} (hl : l.size < 2 ^ (l.depth + 1)) (hr : r.size < 2 ^ (r.depth + 1)) :
      1 + l.size + r.size < 2 ^ (1 + max l.depth r.depth + 1) := by
    have hleft : 2 ^ (l.depth + 1) ≤ 2 ^ (max l.depth r.depth + 1) :=
      Nat.pow_le_pow_right Nat.two_pos (by omega)
    have hright : 2 ^ (r.depth + 1) ≤ 2 ^ (max l.depth r.depth + 1) :=
      Nat.pow_le_pow_right Nat.two_pos (by omega)
    calc 1 + l.size + r.size
        < 2 ^ (max l.depth r.depth + 1) + 2 ^ (max l.depth r.depth + 1) := by omega
      _ = 2 ^ (1 + max l.depth r.depth + 1) := by ring
  induction f with
  | const b | var i => exact Nat.one_lt_two
  | neg x ih | unary op I x ih =>
      rw [depth, size]
      have hdouble : 2 ^ (1 + x.depth + 1) = 2 * 2 ^ (x.depth + 1) := by ring
      omega
  | connective op l r ihl ihr | binary op l I r ihl ihr =>
      rw [depth, size]
      exact room ihl ihr

/-! ### Leaves -/

/-- **There is one leaf more than there are binary nodes.** -/
theorem countP_leaf (f : Formula) :
    (f.preorder.map kind).countP (fun k => k.arity = 0) =
      (f.preorder.map kind).countP (fun k => k.isBinary) + 1 := by
  induction f with
  | const b | var i => rfl
  | neg x ih => simpa [preorder, kind, Kind.isBinary, Kind.arity] using ih
  | unary op I x ih => simpa [preorder, kind, Kind.isBinary, op.arity_kind] using ih
  | connective op l r ihl ihr | binary op l I r ihl ihr =>
      have hleaf : ¬op.kind.arity = 0 := by simp [op.arity_kind]
      have hbinary : op.kind.isBinary = true := by simp [Kind.isBinary, op.arity_kind]
      simp only [preorder, kind, List.map_cons, List.map_append, List.countP_cons,
        List.countP_append, hleaf, hbinary, decide_false, Bool.false_eq_true, ↓reduceIte, ihl, ihr]
      omega

theorem tally_leaves (f : Formula) :
    f.count .constant + f.count .variable =
      (f.preorder.map kind).countP (fun k => k.arity = 0) := by
  have hleaves : f.tally [.constant, .variable] =
      (f.preorder.map kind).countP (· ∈ [Kind.constant, Kind.variable]) :=
    tally_eq_countP (by decide) f
  rw [tally, tally, tally, Nat.add_zero] at hleaves
  rw [hleaves]
  refine List.countP_congr fun k _ => ?_
  cases k <;> decide

theorem tally_binary (f : Formula) :
    f.tally (Kind.all.filter Kind.isBinary) =
      (f.preorder.map kind).countP (fun k => k.isBinary) := by
  rw [tally_eq_countP (Kind.nodup_all.filter _)]
  refine List.countP_congr fun k _ => ?_
  simp [k.mem_all]

/-- **The measures of a formula agree.** The nodes of the twelve kinds add up to all nodes. The size
is greater than the depth, and at most that of a binary tree that is full down to this depth. And
there is one leaf more than there are nodes of the seven binary kinds. -/
theorem measures_agree (f : Formula) :
    f.tally Kind.all = f.size ∧
      (f.depth + 1 ≤ f.size ∧ f.size ≤ 2 ^ (f.depth + 1) - 1) ∧
      f.count .constant + f.count .variable = f.tally (Kind.all.filter Kind.isBinary) + 1 := by
  refine ⟨f.tally_all, ⟨f.depth_lt_size, Nat.le_sub_one_of_lt f.size_lt_two_pow⟩, ?_⟩
  rw [tally_leaves, tally_binary]
  exact f.countP_leaf

end Formula

end MissionTime
