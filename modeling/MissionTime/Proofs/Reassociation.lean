import Mathlib.Logic.Basic
import MissionTime.Formula.Measure
import MissionTime.Syntax.Layout

/-!
# Chains of Connectives Grouped to the Left

Nodes of one connective that are linked parent to child form a *cluster*, with the formulas
that hang below it as its operands, in order. A text without parentheses shows the operands and
not how the cluster groups them. `Formula.reassoc` groups all clusters to the left, which is
how such a text is read.

Regrouping is invisible to whatever does not distinguish `(a ∘ b) ∘ c` from `a ∘ (b ∘ c)`. This
is proved once, for relations between formulas that are compatible with the operators and with
that law (`Regrouping.reassoc`); sizes, counts, future reach and pretty layouts are instances.

## Main definitions

* `Formula.clusterOperands`, `Formula.reassoc`: the operands of the cluster at the root, and
  the formula with all clusters grouped to the left.
* `Formula.LeftGrouped`: formulas without a connective as right operand of itself.
* `Formula.Regrouping`: relations that do not see how clusters are grouped.

## Main results

* `Formula.reassoc_eq_foldl`: a cluster is folded from the left over its operands.
* `Formula.Regrouping.reassoc`: every such relation holds between a regrouped formula and the
  formula.
* `Formula.reassoc_eq_self_iff`: what is grouped to the left already.
-/

namespace MissionTime

/-- A connective is known by the kind of its formulas. -/
theorem Connective.kind_inj {op op' : Connective} : op.kind = op'.kind ↔ op = op' := by
  cases op <;> cases op' <;> decide

namespace Formula

/-! ### Clusters -/

/-- The operands, in order, of the cluster of `op` nodes at the root. A formula with another
root is its own only operand. -/
def clusterOperands (op : Connective) : Formula → List Formula
  | connective op' l r =>
    if op' = op then l.clusterOperands op ++ r.clusterOperands op else [connective op' l r]
  | f => [f]

/-- The formula with every cluster grouped to the left. At a connective both operands are
regrouped, and then the operands of the cluster on the right are joined one after the other to
the cluster on the left. -/
def reassoc : Formula → Formula
  | const value => const value
  | var id => var id
  | neg x => neg x.reassoc
  | connective op l r => (r.reassoc.clusterOperands op).foldl (connective op) l.reassoc
  | unary op I x => unary op I x.reassoc
  | binary op l I r => binary op l.reassoc I r.reassoc

/-- A formula of the kind of a connective has the connective at its root. -/
theorem exists_of_kind_eq {op : Connective} {f : Formula} (h : f.kind = op.kind) :
    ∃ l r, f = connective op l r := by
  cases f with
  | connective op' l r =>
      obtain rfl := Connective.kind_inj.mp h
      exact ⟨l, r, rfl⟩
  | unary op' I x => cases op <;> cases op' <;> cases h
  | binary op' l I r => cases op <;> cases op' <;> cases h
  | _ => cases op <;> cases h

/-- **Induction on a cluster**: on its nodes, down to the operands, which have other roots. -/
theorem cluster_induction {motive : Formula → Prop} (op : Connective)
    (node : ∀ l r, motive l → motive r → motive (connective op l r))
    (operand : ∀ f, f.kind ≠ op.kind → motive f) (f : Formula) : motive f := by
  induction f with
  | connective op' l r ihl ihr =>
      by_cases h : op' = op
      · subst h
        exact node l r ihl ihr
      · exact operand _ fun hkind => h (Connective.kind_inj.mp hkind)
  | _ =>
      refine operand _ fun hkind => ?_
      obtain ⟨l, r, hf⟩ := exists_of_kind_eq hkind
      cases hf

theorem clusterOperands_connective (op : Connective) (l r : Formula) :
    (connective op l r).clusterOperands op = l.clusterOperands op ++ r.clusterOperands op := by
  rw [clusterOperands, if_pos rfl]

theorem clusterOperands_of_kind_ne {op : Connective} {f : Formula} (h : f.kind ≠ op.kind) :
    f.clusterOperands op = [f] := by
  cases f with
  | connective op' l r =>
      rw [clusterOperands, if_neg]
      rintro rfl
      exact h rfl
  | _ => rfl

/-- No operand of a cluster is a node of it. -/
theorem kind_ne_of_mem_clusterOperands {op : Connective} {f g : Formula}
    (h : g ∈ f.clusterOperands op) : g.kind ≠ op.kind := by
  induction f using cluster_induction op with
  | node l r ihl ihr =>
      rw [clusterOperands_connective, List.mem_append] at h
      exact h.elim ihl ihr
  | operand f hf =>
      rw [clusterOperands_of_kind_ne hf, List.mem_singleton] at h
      exact h ▸ hf

/-- A cluster has at least one operand. -/
theorem clusterOperands_ne_nil (op : Connective) (f : Formula) : f.clusterOperands op ≠ [] := by
  induction f using cluster_induction op with
  | node l r ihl _ =>
      rw [clusterOperands_connective]
      exact List.append_ne_nil_of_left_ne_nil ihl _
  | operand f hf =>
      rw [clusterOperands_of_kind_ne hf]
      exact List.cons_ne_nil f []

/-! ### Folding from the left -/

/-- What is joined to a cluster one by one are further operands of it. -/
theorem clusterOperands_foldl {op : Connective} {gs : List Formula}
    (h : ∀ g ∈ gs, g.kind ≠ op.kind) (f : Formula) :
    (gs.foldl (connective op) f).clusterOperands op = f.clusterOperands op ++ gs := by
  induction gs generalizing f with
  | nil => exact (List.append_nil _).symm
  | cons g gs ih =>
      rw [List.foldl_cons, ih (fun g' hg' => h g' (List.mem_cons_of_mem g hg')),
        clusterOperands_connective, clusterOperands_of_kind_ne (h g List.mem_cons_self),
        List.append_assoc, List.singleton_append]

/-- Regrouping keeps the kind of the root. -/
theorem kind_foldl {op : Connective} {f : Formula} (h : f.kind = op.kind) (gs : List Formula) :
    (gs.foldl (connective op) f).kind = op.kind := by
  induction gs generalizing f with
  | nil => exact h
  | cons g gs ih => exact ih rfl

@[simp] theorem kind_reassoc (f : Formula) : f.reassoc.kind = f.kind := by
  cases f with
  | connective op l r =>
      cases hgs : r.reassoc.clusterOperands op with
      | nil => exact absurd hgs (clusterOperands_ne_nil op _)
      | cons g gs =>
          rw [reassoc, hgs, List.foldl_cons]
          exact kind_foldl rfl gs
  | _ => rfl

/-- The operands of a regrouped cluster are the regrouped operands, in the same order. -/
theorem clusterOperands_reassoc (op : Connective) (f : Formula) :
    f.reassoc.clusterOperands op = (f.clusterOperands op).map reassoc := by
  induction f using cluster_induction op with
  | node l r ihl ihr =>
      rw [reassoc, clusterOperands_foldl fun g => kind_ne_of_mem_clusterOperands,
        clusterOperands_connective, List.map_append, ihl, ihr]
  | operand f hf =>
      rw [clusterOperands_of_kind_ne hf, clusterOperands_of_kind_ne (by rwa [kind_reassoc])]
      rfl

/-- **A cluster is folded from the left** over its operands, each of them regrouped. -/
theorem reassoc_eq_foldl (op : Connective) (f : Formula) :
    ∃ g gs, f.clusterOperands op = g :: gs ∧
      f.reassoc = (gs.map reassoc).foldl (connective op) g.reassoc := by
  induction f using cluster_induction op with
  | node l r ihl _ =>
      obtain ⟨g, gs, hl, hfold⟩ := ihl
      refine ⟨g, gs ++ r.clusterOperands op, ?_, ?_⟩
      · rw [clusterOperands_connective, hl, List.cons_append]
      · rw [reassoc, hfold, clusterOperands_reassoc, List.map_append, List.foldl_append]
  | operand f hf => exact ⟨f, [], clusterOperands_of_kind_ne hf, rfl⟩

/-! ### What regrouping cannot change -/

/-- A relation between formulas that is compatible with the operators and does not see how the
nodes of a cluster are grouped. -/
structure Regrouping (R : Formula → Formula → Prop) : Prop where
  refl : ∀ f, R f f
  trans : ∀ {f g h}, R f g → R g h → R f h
  neg : ∀ {x y}, R x y → R (neg x) (neg y)
  connective : ∀ op {l l' r r'}, R l l' → R r r' → R (connective op l r) (connective op l' r')
  unary : ∀ op I {x y}, R x y → R (unary op I x) (unary op I y)
  binary : ∀ op I {l l' r r'}, R l l' → R r r' → R (binary op l I r) (binary op l' I r')
  assoc : ∀ op a b c, R (.connective op (.connective op a b) c)
    (.connective op a (.connective op b c))

namespace Regrouping

variable {R : Formula → Formula → Prop}

/-- Joining the operands of a cluster one by one is as good as joining the cluster. -/
theorem foldl (hR : Regrouping R) (op : Connective) (f g : Formula) :
    R ((g.clusterOperands op).foldl (.connective op) f) (.connective op f g) := by
  induction g using cluster_induction op generalizing f with
  | node a b iha ihb =>
      rw [clusterOperands_connective, List.foldl_append]
      refine hR.trans (ihb _) (hR.trans ?_ (hR.assoc op f a b))
      exact hR.connective op (iha f) (hR.refl b)
  | operand g hg =>
      rw [clusterOperands_of_kind_ne hg]
      exact hR.refl _

/-- **A regrouped formula is related to the formula** by each relation that does not see how
clusters are grouped. -/
theorem reassoc (hR : Regrouping R) (f : Formula) : R f.reassoc f := by
  induction f with
  | const value => exact hR.refl _
  | var id => exact hR.refl _
  | neg x ih => exact hR.neg ih
  | connective op l r ihl ihr =>
      exact hR.trans (hR.foldl op l.reassoc r.reassoc) (hR.connective op ihl ihr)
  | unary op I x ih => exact hR.unary op I ih
  | binary op l I r ihl ihr => exact hR.binary op I ihl ihr

end Regrouping

/-! ### Measures -/

theorem regrouping_size : Regrouping fun f g => f.size = g.size where
  refl _ := rfl
  trans := Eq.trans
  neg h := by simp only [size, h]
  connective op _ _ _ _ hl hr := by simp only [size, hl, hr]
  unary op I _ _ h := by simp only [size, h]
  binary op I _ _ _ _ hl hr := by simp only [size, hl, hr]
  assoc op a b c := by
    simp only [size]
    omega

theorem regrouping_count (k : Kind) : Regrouping fun f g => f.count k = g.count k where
  refl _ := rfl
  trans := Eq.trans
  neg h := by simp only [count, h]
  connective op _ _ _ _ hl hr := by simp only [count, hl, hr]
  unary op I _ _ h := by simp only [count, h]
  binary op I _ _ _ _ hl hr := by simp only [count, hl, hr]
  assoc op a b c := by
    simp only [count]
    omega

theorem regrouping_futureReach : Regrouping fun f g => f.futureReach = g.futureReach where
  refl _ := rfl
  trans := Eq.trans
  neg h := by simp only [futureReach, h]
  connective op _ _ _ _ hl hr := by simp only [futureReach, hl, hr]
  unary op I _ _ h := by simp only [futureReach, h]
  binary op I _ _ _ _ hl hr := by simp only [futureReach, hl, hr]
  assoc op a b c := by
    simp only [futureReach]
    exact Nat.max_assoc _ _ _

/-- Regrouping keeps the number of nodes. -/
theorem size_reassoc (f : Formula) : f.reassoc.size = f.size :=
  regrouping_size.reassoc f

/-- Regrouping keeps the number of nodes of each kind. -/
theorem count_reassoc (k : Kind) (f : Formula) : f.reassoc.count k = f.count k :=
  (regrouping_count k).reassoc f

/-- Regrouping keeps the number of steps that a formula may examine. -/
theorem futureReach_reassoc (f : Formula) : f.reassoc.futureReach = f.futureReach :=
  regrouping_futureReach.reassoc f

/-! ### Pretty layouts -/

/-- A connective needs no parentheses around an operand of its own kind. -/
theorem needsParens_of_kind_eq {op : Connective} {f : Formula} (h : f.kind = op.kind) :
    needsParens op.kind f = false := by
  obtain ⟨l, r, rfl⟩ := exists_of_kind_eq h
  cases op <;> rfl

/-- Layouts show the operands of a cluster and not how they are grouped. -/
theorem regrouping_layout : Regrouping fun f g => f.kind = g.kind ∧ f.layout = g.layout where
  refl _ := ⟨rfl, rfl⟩
  trans h h' := ⟨h.1.trans h'.1, h.2.trans h'.2⟩
  neg h := ⟨rfl, by simp only [layout, needsParens, h.1, h.2]⟩
  connective op _ _ _ _ hl hr :=
    ⟨rfl, by simp only [layout, needsParens, hl.1, hl.2, hr.1, hr.2]⟩
  unary op I _ _ h := ⟨rfl, by simp only [layout, needsParens, h.1, h.2]⟩
  binary op I _ _ _ _ hl hr :=
    ⟨rfl, by simp only [layout, needsParens, hl.1, hl.2, hr.1, hr.2]⟩
  assoc op a b c := by
    have hleft : needsParens op.kind (connective op a b) = false := needsParens_of_kind_eq rfl
    have hright : needsParens op.kind (connective op b c) = false := needsParens_of_kind_eq rfl
    refine ⟨rfl, ?_⟩
    simp only [layout, hleft, hright, layoutOperand, Bool.false_eq_true, ↓reduceIte,
      List.append_assoc]

/-- A regrouped formula has the same pretty text. -/
theorem pretty_reassoc (f : Formula) : f.reassoc.pretty = f.pretty := by
  rw [pretty, pretty, (regrouping_layout.reassoc f).2]

/-! ### Formulas that are grouped to the left -/

/-- In a formula that is **grouped to the left**, no connective is the right operand of a node
of the same connective. -/
def LeftGrouped (f : Formula) : Prop :=
  ∀ op l r, connective op l r ∈ f.preorder → r.kind ≠ op.kind

/-- A root that is no connective adds nothing to the condition. -/
theorem leftGrouped_iff_of_root {root : Formula} {below : List Formula}
    (hpreorder : root.preorder = root :: below) (hroot : ∀ op l r, root ≠ connective op l r) :
    root.LeftGrouped ↔ ∀ op l r, connective op l r ∈ below → r.kind ≠ op.kind := by
  rw [LeftGrouped, hpreorder]
  constructor
  · intro h op l r hmem
    exact h op l r (List.mem_cons_of_mem root hmem)
  · intro h op l r hmem
    obtain heq | hmem := List.mem_cons.mp hmem
    · exact absurd heq.symm (hroot op l r)
    · exact h op l r hmem

/-- The condition on the subformulas of two operands is that on each of them. -/
theorem leftGrouped_and_iff {f g : Formula} :
    f.LeftGrouped ∧ g.LeftGrouped ↔
      ∀ op l r, connective op l r ∈ f.preorder ++ g.preorder → r.kind ≠ op.kind := by
  constructor
  · rintro ⟨hf, hg⟩ op l r hmem
    obtain hmem | hmem := List.mem_append.mp hmem
    · exact hf op l r hmem
    · exact hg op l r hmem
  · intro h
    exact ⟨fun op l r hmem => h op l r (List.mem_append_left _ hmem),
      fun op l r hmem => h op l r (List.mem_append_right _ hmem)⟩

theorem leftGrouped_const (value : Bool) : (const value).LeftGrouped :=
  (leftGrouped_iff_of_root rfl (by rintro op l r ⟨⟩)).mpr (by rintro op l r ⟨⟩)

theorem leftGrouped_var (id : UInt32) : (var id).LeftGrouped :=
  (leftGrouped_iff_of_root rfl (by rintro op l r ⟨⟩)).mpr (by rintro op l r ⟨⟩)

theorem leftGrouped_neg {x : Formula} : (neg x).LeftGrouped ↔ x.LeftGrouped :=
  leftGrouped_iff_of_root rfl (by rintro op l r ⟨⟩)

theorem leftGrouped_unary {op : UnaryTemporal} {I : Interval} {x : Formula} :
    (unary op I x).LeftGrouped ↔ x.LeftGrouped :=
  leftGrouped_iff_of_root rfl (by rintro op' l r ⟨⟩)

theorem leftGrouped_binary {op : BinaryTemporal} {I : Interval} {l r : Formula} :
    (binary op l I r).LeftGrouped ↔ l.LeftGrouped ∧ r.LeftGrouped :=
  (leftGrouped_iff_of_root rfl (by rintro op' a b ⟨⟩)).trans leftGrouped_and_iff.symm

theorem leftGrouped_connective {op : Connective} {l r : Formula} :
    (connective op l r).LeftGrouped ↔ l.LeftGrouped ∧ r.LeftGrouped ∧ r.kind ≠ op.kind := by
  rw [← and_assoc, leftGrouped_and_iff]
  constructor
  · intro h
    exact ⟨fun op' a b hmem => h op' a b (List.mem_cons_of_mem _ hmem),
      h op l r List.mem_cons_self⟩
  · rintro ⟨h, hroot⟩ op' a b hmem
    obtain heq | hmem := List.mem_cons.mp hmem
    · cases heq
      exact hroot
    · exact h op' a b hmem

/-- The operands of a cluster that is grouped to the left are themselves grouped so. -/
theorem LeftGrouped.of_mem_clusterOperands {op : Connective} {f g : Formula}
    (hf : f.LeftGrouped) (h : g ∈ f.clusterOperands op) : g.LeftGrouped := by
  induction f using cluster_induction op with
  | node l r ihl ihr =>
      obtain ⟨hl, hr, -⟩ := leftGrouped_connective.mp hf
      rw [clusterOperands_connective, List.mem_append] at h
      exact h.elim (ihl hl) (ihr hr)
  | operand f hkind =>
      rw [clusterOperands_of_kind_ne hkind, List.mem_singleton] at h
      exact h ▸ hf

/-- Joining such formulas from the left groups them to the left, if none is of the connective's
own kind. -/
theorem LeftGrouped.foldl {op : Connective} {f : Formula} {gs : List Formula}
    (hf : f.LeftGrouped) (hgs : ∀ g ∈ gs, g.LeftGrouped ∧ g.kind ≠ op.kind) :
    (gs.foldl (connective op) f).LeftGrouped := by
  induction gs generalizing f with
  | nil => exact hf
  | cons g gs ih =>
      have hg := hgs g List.mem_cons_self
      exact ih (leftGrouped_connective.mpr ⟨hf, hg⟩)
        fun g' hg' => hgs g' (List.mem_cons_of_mem g hg')

/-- A regrouped formula is grouped to the left. -/
theorem leftGrouped_reassoc (f : Formula) : f.reassoc.LeftGrouped := by
  induction f with
  | const value => exact leftGrouped_const value
  | var id => exact leftGrouped_var id
  | neg x ih => exact leftGrouped_neg.mpr ih
  | connective op l r ihl ihr =>
      exact ihl.foldl fun g hg =>
        ⟨ihr.of_mem_clusterOperands hg, kind_ne_of_mem_clusterOperands hg⟩
  | unary op I x ih => exact leftGrouped_unary.mpr ih
  | binary op l I r ihl ihr => exact leftGrouped_binary.mpr ⟨ihl, ihr⟩

/-- **Regrouping changes nothing** exactly where everything is grouped to the left already. -/
theorem reassoc_eq_self_iff (f : Formula) : f.reassoc = f ↔ f.LeftGrouped := by
  constructor
  · intro h
    exact h ▸ leftGrouped_reassoc f
  · intro h
    induction f with
    | const value => rfl
    | var id => rfl
    | neg x ih => rw [reassoc, ih (leftGrouped_neg.mp h)]
    | connective op l r ihl ihr =>
        obtain ⟨hl, hr, hkind⟩ := leftGrouped_connective.mp h
        rw [reassoc, ihl hl, ihr hr, clusterOperands_of_kind_ne hkind]
        rfl
    | unary op I x ih => rw [reassoc, ih (leftGrouped_unary.mp h)]
    | binary op l I r ihl ihr =>
        obtain ⟨hl, hr⟩ := leftGrouped_binary.mp h
        rw [reassoc, ihl hl, ihr hr]

end Formula

end MissionTime
