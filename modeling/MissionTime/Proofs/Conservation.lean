import MissionTime.Formula.Measure
import MissionTime.Proofs.Operands

/-!
# Conservation of Nodes

An exchange of operands is a swap: the offer goes into the slot, and the operand that was there
is handed back. So it can be undone, and no node is lost or made. This goes for a sequence of
exchanges among any formulas too, where each formula that is handed back is at hand for the next
exchange.

## Main definitions

* `Kind.hasSlot`: the slots that the nodes of a kind have.
* `Replacement.Swaps`: what is promised of an exchange.
* `Exchange`, `Exchange.make?`: exchanges among formulas at hand.
* `total`: the sum of a measure over the formulas at hand.

## Main results

* `Formula.swaps_replace`: an exchange is a swap.
* `Conserved.total_make?`, `Conserved.total_foldl`: an exchange, and a sequence of them, keep the
  total of every measure that a swap keeps.
* `Formula.replace_conserves_nodes`: a swap keeps the number of nodes of each kind.
-/

namespace MissionTime

open Formula

/-! ### Slots -/

/-- The slots of a kind: unary operators have an operand, binary ones a left and a right one. -/
def Kind.hasSlot (k : Kind) : Slot → Bool
  | .operand => k.isUnary
  | .left | .right => k.isBinary

namespace Formula

variable {f g x : Formula} {slot : Slot}

/-- The kind of a formula tells in which slots it has operands. -/
theorem hasSlot_kind (f : Formula) (slot : Slot) :
    f.kind.hasSlot slot = (f.child? slot).isSome := by
  cases f with
  | connective op l r => cases op <;> cases slot <;> rfl
  | unary op I x => cases op <;> cases slot <;> rfl
  | binary op l I r => cases op <;> cases slot <;> rfl
  | _ => cases slot <;> rfl

/-! ### Nodes of each kind -/

/-- Nodes of a kind are counted among all nodes. -/
theorem count_eq_count_preorder (k : Kind) (f : Formula) :
    f.count k = (f.preorder.map kind).count k := by
  induction f with
  | const b | var i => simp [count, preorder, kind, List.count_singleton]
  | neg x ih | unary op I x ih =>
      simp only [count, preorder, kind, List.map_cons, List.count_cons, beq_iff_eq, ih]
      omega
  | connective op l r ihl ihr | binary op l I r ihl ihr =>
      simp only [count, preorder, kind, List.map_cons, List.map_append, List.count_cons,
        List.count_append, beq_iff_eq, ihl, ihr]
      omega

theorem size_eq_length_preorder (f : Formula) : f.size = f.preorder.length := by
  induction f with
  | const b | var i => rfl
  | neg x ih | unary op I x ih => rw [size, preorder, List.length_cons, ih, Nat.add_comm]
  | connective op l r ihl ihr | binary op l I r ihl ihr =>
      rw [size, preorder, List.length_cons, List.length_append, ihl, ihr]
      omega

end Formula

/-- A measure of formulas is **conserved** if it is the same in sum before and after an
exchange. -/
def Conserved (measure : Formula → Nat) : Prop :=
  ∀ slot f g, measure (f.replace slot g).formula + measure (f.replace slot g).returned =
    measure f + measure g

/-- The number of nodes of a kind is conserved. -/
theorem conserved_count (k : Kind) : Conserved (count k) := by
  intro slot f g
  have hperm := (preorder_replace_perm kind kind_replace slot f g).count_eq k
  simp only [List.map_append, List.count_append] at hperm
  simpa only [count_eq_count_preorder] using hperm

/-- The number of all nodes is conserved. -/
theorem conserved_size : Conserved size := by
  intro slot f g
  have hperm := (preorder_replace_perm kind kind_replace slot f g).length_eq
  simp only [List.length_map, List.length_append] at hperm
  simpa only [size_eq_length_preorder] using hperm

/-! ### An exchange -/

/-- What is promised of an exchange of the operand in a slot of `f` for `g`. -/
structure Replacement.Swaps (slot : Slot) (f g : Formula) (r : Replacement) : Prop where
  /-- The offer is accepted if nodes of the kind have the slot. -/
  accepted_iff : r.accepted = true ↔ f.kind.hasSlot slot = true
  /-- The operand that was in the slot is handed back, and the offer is in the slot. -/
  swapped : r.accepted = true → f.child? slot = some r.returned ∧ r.formula.child? slot = some g
  /-- Nothing else about the node is changed. -/
  kept : r.formula.kind = f.kind ∧ r.formula.bounds? = f.bounds? ∧
    ∀ other, other ≠ slot → r.formula.child? other = f.child? other
  /-- The exchange of what was handed back restores the formula and hands back the offer. -/
  undone : r.accepted = true → r.formula.replace slot r.returned = ⟨true, f, g⟩
  /-- A refused offer is handed back, and the formula stays. -/
  refused : r.accepted = false → r.formula = f ∧ r.returned = g
  /-- The nodes of each kind are conserved. -/
  count_eq : ∀ k, r.formula.count k + r.returned.count k = f.count k + g.count k
  size_eq : r.formula.size + r.returned.size = f.size + g.size

/-- **An exchange is a swap.** -/
theorem Formula.swaps_replace (slot : Slot) (f g : Formula) :
    (f.replace slot g).Swaps slot f g where
  accepted_iff := by rw [accepted_replace, hasSlot_kind]
  swapped h := ⟨child?_of_accepted h, child?_replace (child?_of_accepted h) g⟩
  kept := ⟨kind_replace slot f g, bounds?_replace slot f g,
    fun _ hother => child?_replace_of_ne hother f g⟩
  undone h := replace_undone (child?_of_accepted h) g
  refused h := by
    rw [accepted_replace, Option.isSome_eq_false_iff, Option.isNone_iff_eq_none] at h
    rw [replace_of_child?_eq_none h]
    exact ⟨rfl, rfl⟩
  count_eq k := conserved_count k slot f g
  size_eq := conserved_size slot f g

/-! ### Exchanges among formulas at hand -/

/-- A call on the formulas at hand, which are numbered: one of them is offered for a slot of the
node at the end of a path in another one. -/
structure Exchange where
  target : Nat
  path : List Slot
  slot : Slot
  source : Nat

namespace Exchange

variable {pool : List Formula} {target source : Nat} {f g node : Formula}

/-- The formulas at hand after a call. The offer is given away, and what is handed back takes its
number. There is no call without the two formulas or without the node, and a formula cannot be
offered to itself. -/
def make? (e : Exchange) (pool : List Formula) : Option (List Formula) :=
  if e.target = e.source then none
  else do
    let f ← pool[e.target]?
    let g ← pool[e.source]?
    let node ← f.at? e.path
    let outcome := node.replace e.slot g
    return (pool.set e.target (f.put e.path outcome.formula)).set e.source outcome.returned

/-- A call puts the outcome of the exchange in the places of the node and of the offer. -/
theorem make?_of_at? {path : List Slot} (hne : target ≠ source) (hf : pool[target]? = some f)
    (hg : pool[source]? = some g) (hnode : f.at? path = some node) (slot : Slot) :
    make? ⟨target, path, slot, source⟩ pool =
      some ((pool.set target (f.put path (node.replace slot g).formula)).set source
        (node.replace slot g).returned) := by
  simp only [make?, if_neg hne, hf, hg, hnode, bind, Option.bind_some, pure]

end Exchange

/-- The sum of a measure over the formulas at hand. -/
def total (measure : Formula → Nat) : List Formula → Nat
  | [] => 0
  | f :: pool => measure f + total measure pool

/-- One formula in the place of another changes the sum by the difference of the two. -/
theorem total_set (measure : Formula → Nat) {pool : List Formula} {i : Nat} {f : Formula}
    (h : pool[i]? = some f) (g : Formula) :
    total measure (pool.set i g) + measure f = total measure pool + measure g := by
  induction pool generalizing i with
  | nil => cases h
  | cons x pool ih =>
      cases i with
      | zero =>
          cases h
          rw [List.set_cons_zero, total, total]
          omega
      | succ i =>
          have hrest := ih h
          rw [List.set_cons_succ, total, total]
          omega

namespace Conserved

variable {measure : Formula → Nat}

/-- A subformula takes its measure with it when another one is put in its place. Induction on the
path: what has become of an operand is exchanged for the operand. -/
theorem measure_put (hmeasure : Conserved measure) {path : List Slot} {f x : Formula}
    (h : f.at? path = some x) (y : Formula) :
    measure (f.put path y) + measure x = measure f + measure y := by
  induction path generalizing f with
  | nil =>
      cases h
      exact Nat.add_comm _ _
  | cons slot path ih =>
      obtain ⟨child, hchild, h⟩ := Option.bind_eq_some_iff.mp h
      have hinner := ih h
      have houter := hmeasure slot f (child.put path y)
      rw [← put_cons hchild, returned_replace hchild] at houter
      omega

/-- **An exchange keeps the total** of what is conserved. -/
theorem total_make? (hmeasure : Conserved measure) {e : Exchange} {pool after : List Formula}
    (h : e.make? pool = some after) : total measure after = total measure pool := by
  rw [Exchange.make?] at h
  split at h
  · cases h
  · rename_i hne
    simp only [bind, Option.bind_eq_some_iff] at h
    obtain ⟨f, hf, g, hg, node, hnode, ⟨⟩⟩ := h
    have hswap := hmeasure e.slot node g
    have hput := hmeasure.measure_put hnode (node.replace e.slot g).formula
    generalize f.put e.path (node.replace e.slot g).formula = f' at hput ⊢
    have hg' : (pool.set e.target f')[e.source]? = some g := by rw [List.getElem?_set_ne hne, hg]
    have htarget := total_set measure hf f'
    have hsource := total_set measure hg' (node.replace e.slot g).returned
    omega

/-- **A sequence of exchanges keeps the total** of what is conserved, where what is no call does
nothing. Induction on the sequence. -/
theorem total_foldl (hmeasure : Conserved measure) (es : List Exchange) (pool : List Formula) :
    total measure (es.foldl (fun pool e => (e.make? pool).getD pool) pool) =
      total measure pool := by
  induction es generalizing pool with
  | nil => rfl
  | cons e es ih =>
      rw [List.foldl_cons, ih]
      cases h : e.make? pool with
      | none => rfl
      | some after => exact hmeasure.total_make? h

end Conserved

/-- **An exchange loses no nodes and makes none.** It is a swap of the operand in the slot and the
offer, which can be undone. A call on formulas at hand makes this swap at a node of one of them.
After any sequence of calls there are as many nodes of each kind in all formulas at hand as
before. -/
theorem Formula.replace_conserves_nodes :
    (∀ (slot : Slot) (f g : Formula), (f.replace slot g).Swaps slot f g) ∧
      (∀ (pool : List Formula) (target source : Nat) (path : List Slot) (slot : Slot)
        (f g node : Formula), target ≠ source → pool[target]? = some f → pool[source]? = some g →
        f.at? path = some node →
        Exchange.make? ⟨target, path, slot, source⟩ pool =
          some ((pool.set target (f.put path (node.replace slot g).formula)).set source
            (node.replace slot g).returned)) ∧
      ∀ (es : List Exchange) (pool : List Formula),
        let after := es.foldl (fun pool e => (e.make? pool).getD pool) pool
        (∀ k, total (count k) after = total (count k) pool) ∧ total size after = total size pool :=
  ⟨swaps_replace,
    fun _ _ _ _ slot _ _ _ hne hf hg hnode => Exchange.make?_of_at? hne hf hg hnode slot,
    fun es pool => ⟨fun k => (conserved_count k).total_foldl es pool,
      conserved_size.total_foldl es pool⟩⟩

/-- A left operand changes places with another formula, and the operator is no unary one. -/
theorem Formula.replace_conserves_nodes_until :
    let f : Formula := binary .until (var 0) ⟨2, 5, by decide⟩ (var 1)
    let g : Formula := unary .finally (.point 3) (var 2)
    Exchange.make? ⟨1, [], .left, 0⟩ [g, f] =
        some [var 0, binary .until g ⟨2, 5, by decide⟩ (var 1)] ∧
      (f.replace .operand g).formula = f ∧ (f.replace .operand g).returned = g := by
  intro f g
  obtain ⟨hswaps, hcall, -⟩ := replace_conserves_nodes
  exact ⟨hcall [g, f] 1 0 [] .left f g f (by decide) rfl rfl rfl,
    (hswaps .operand f g).refused rfl⟩

end MissionTime
