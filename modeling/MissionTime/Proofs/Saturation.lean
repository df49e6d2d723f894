import MissionTime.Proofs.Reach

/-!
# Saturation of the Future Reach

The sums in the future reach stop at the last step. Compared with the reach in unbounded numbers,
a sum that is cut off is the last step in place of a larger number, and further sums keep it there.
The one thing that does not is the step that `until` and `release` take from the reach of their
left operand. If that reach was cut off, the step is taken from the last step; and if the interval
ends at offset zero, nothing is added to it again. At such a node the reach falls one short of the
last step, though the exact reach is not below it. Otherwise the future reach is the exact reach,
cut off at the last step.

## Main definitions

* `Formula.exactReach`: the future reach in unbounded numbers.
* `Formula.LosesStep`: the nodes at which the reach falls short.
* `Formula.lostSteps`: how many such nodes there are on a path.

## Main results

* `Formula.futureReach_le_exactReach`, `Formula.exactReach_le_futureReach_add`: the future reach
  between its bounds.
* `Formula.futureReach_saturates`: the future reach is exact up to the last step, except for the
  steps that are lost.
* `Formula.futureReach_until_falls_short`: a formula that loses a step.
-/

namespace MissionTime.Formula

/-! ### The reach in unbounded numbers -/

/-- The **exact reach** of a formula: its future reach with sums that are not cut off. -/
def exactReach : Formula → Nat
  | const _ => 0
  | var _ => 1
  | neg x => x.exactReach
  | connective _ l r => max l.exactReach r.exactReach
  | unary _ I x => I.upper.toNat + x.exactReach
  | binary _ l I r =>
    if l.exactReach > r.exactReach then I.upper.toNat + l.exactReach - 1
    else I.upper.toNat + r.exactReach

/-- The exact reach of a binary temporal operator with both cases in one. -/
theorem exactReach_binary (op : BinaryTemporal) (l r : Formula) (I : Interval) :
    (binary op l I r).exactReach =
      I.upper.toNat + max (l.exactReach - 1) r.exactReach := by
  rw [exactReach]
  split <;> omega

/-- The future reach is at most the exact one and at most the last step. -/
theorem futureReach_le_exactReach (f : Formula) : f.futureReach ≤ min lastStep f.exactReach := by
  induction f with
  | const value => exact Nat.zero_le _
  | var id => exact Nat.le_min.mpr ⟨one_le_lastStep, Nat.le_refl 1⟩
  | neg x ih => exact ih
  | connective op l r ihl ihr =>
      rw [futureReach, exactReach]
      omega
  | unary op I x ih =>
      rw [futureReach, exactReach, stepAfter]
      omega
  | binary op l I r ihl ihr =>
      rw [futureReach_binary, exactReach_binary, stepAfter]
      omega

/-! ### Lost steps -/

/-- A formula **loses a step** if it is a binary temporal operator whose interval ends at offset
zero, whose left operand reaches beyond the last step, and whose right operand does not reach
it. -/
def LosesStep : Formula → Prop
  | binary _ l I r => I.upper = 0 ∧ lastStep < l.exactReach ∧ r.exactReach < lastStep
  | _ => False

instance : DecidablePred LosesStep
  | binary _ _ _ _ => inferInstanceAs (Decidable (_ ∧ _))
  | const _ | var _ | neg _ | connective _ _ _ | unary _ _ _ => inferInstanceAs (Decidable False)

/-- The number of nodes that lose a step, on a path with the most of them. -/
def lostSteps : Formula → Nat
  | const _ | var _ => 0
  | neg x | unary _ _ x => x.lostSteps
  | connective _ l r => max l.lostSteps r.lostSteps
  | binary op l I r =>
    max l.lostSteps r.lostSteps + if (binary op l I r).LosesStep then 1 else 0

/-- Without nodes that lose a step, no steps are lost. -/
theorem lostSteps_eq_zero {f : Formula} (h : ∀ g ∈ f.preorder, ¬ g.LosesStep) :
    f.lostSteps = 0 := by
  induction f with
  | const value => rfl
  | var id => rfl
  | neg x ih => exact ih (List.forall_mem_cons.mp h).2
  | connective op l r ihl ihr =>
      obtain ⟨hl, hr⟩ := List.forall_mem_append.mp (List.forall_mem_cons.mp h).2
      rw [lostSteps, ihl hl, ihr hr, Nat.max_self]
  | unary op I x ih => exact ih (List.forall_mem_cons.mp h).2
  | binary op l I r ihl ihr =>
      obtain ⟨hroot, hoperands⟩ := List.forall_mem_cons.mp h
      obtain ⟨hl, hr⟩ := List.forall_mem_append.mp hoperands
      rw [lostSteps, ihl hl, ihr hr, if_neg hroot, Nat.max_self]

/-- A sum that is cut off at the last step falls short of a number below that no more than the
sum itself does. -/
theorem le_stepAfter_add {x step offset k : Nat} (h : min lastStep x ≤ step + offset + k) :
    min lastStep x ≤ stepAfter step offset + k := by
  rw [stepAfter]
  omega

/-- The future reach falls short of the exact one, cut off at the last step, by no more than the
steps that are lost. -/
theorem exactReach_le_futureReach_add (f : Formula) :
    min lastStep f.exactReach ≤ f.futureReach + f.lostSteps := by
  induction f with
  | const value => exact Nat.min_le_right _ _
  | var id => exact Nat.min_le_right _ _
  | neg x ih => exact ih
  | connective op l r ihl ihr =>
      rw [futureReach, exactReach, lostSteps]
      omega
  | unary op I x ih =>
      rw [futureReach, exactReach, lostSteps]
      exact le_stepAfter_add (by omega)
  | binary op l I r ihl ihr =>
      have hl : min lastStep l.exactReach ≤ l.futureReach + max l.lostSteps r.lostSteps :=
        Nat.le_trans ihl (Nat.add_le_add_left (Nat.le_max_left _ _) _)
      have hr : min lastStep r.exactReach ≤ r.futureReach + max l.lostSteps r.lostSteps :=
        Nat.le_trans ihr (Nat.add_le_add_left (Nat.le_max_right _ _) _)
      rw [futureReach_binary, exactReach_binary, lostSteps]
      refine le_stepAfter_add ?_
      generalize max l.lostSteps r.lostSteps = lost at hl hr ⊢
      split
      · -- The node adds a lost step, which is the one that it takes from the left operand.
        omega
      · rename_i hkept
        have hzero : I.upper = 0 ↔ I.upper.toNat = 0 := UInt64.toNat_inj.symm
        rw [LosesStep, hzero] at hkept
        -- If the reach of the left operand was cut off, the interval adds the step again that is
        -- taken from it, or the reach of the right operand was cut off as well.
        omega

/-- Without lost steps the future reach is the exact one, cut off at the last step. -/
theorem futureReach_eq_of_kept {f : Formula} (h : ∀ g ∈ f.preorder, ¬ g.LosesStep) :
    f.futureReach = min lastStep f.exactReach := by
  have hle := f.exactReach_le_futureReach_add
  rw [lostSteps_eq_zero h, Nat.add_zero] at hle
  exact Nat.le_antisymm f.futureReach_le_exactReach hle

/-- A node that loses a step, with no others below it, has a reach of one step less than the last
one. -/
theorem LosesStep.futureReach_eq {f : Formula} (h : f.LosesStep)
    (hbelow : ∀ g ∈ f.preorder.tail, ¬ g.LosesStep) :
    f.futureReach = lastStep - 1 ∧ min lastStep f.exactReach = lastStep := by
  cases f with
  | binary op l I r =>
      obtain ⟨hupper, hl, hr⟩ := h
      obtain ⟨hbelowl, hbelowr⟩ := List.forall_mem_append.mp hbelow
      have hreachl := futureReach_eq_of_kept hbelowl
      have hreachr := futureReach_eq_of_kept hbelowr
      rw [futureReach_binary, exactReach_binary, hreachl, hreachr, hupper, stepAfter,
        UInt64.toNat_zero]
      omega
  | _ => cases h

/-- **Saturation of the future reach.** It is at most the exact reach, cut off at the last step,
and it falls short of that by no more than the number of nodes on a path that lose a step. So it
is exact up to the last step if there are none; and if only the root loses a step, the reach is
one less than the last step, with the exact one not below the last step. -/
theorem futureReach_saturates (f : Formula) :
    f.futureReach ≤ min lastStep f.exactReach ∧
      min lastStep f.exactReach ≤ f.futureReach + f.lostSteps ∧
      ((∀ g ∈ f.preorder, ¬ g.LosesStep) → f.futureReach = min lastStep f.exactReach) ∧
      (f.LosesStep → (∀ g ∈ f.preorder.tail, ¬ g.LosesStep) →
        f.futureReach = lastStep - 1 ∧ min lastStep f.exactReach = lastStep) :=
  ⟨f.futureReach_le_exactReach, f.exactReach_le_futureReach_add, futureReach_eq_of_kept,
    LosesStep.futureReach_eq⟩

/-- A left operand whose reach of two to the sixty-fourth is cut off by one, and then counts one
step less: the exact reach of the whole is the last step, which is a number that the future reach
could have, and does not. -/
theorem futureReach_until_falls_short :
    let last : Interval := .point 18446744073709551615
    let f : Formula := binary .until (unary .finally last (var 0)) (.point 0) (const true)
    f.futureReach = 18446744073709551614 ∧ f.exactReach = 18446744073709551615 ∧
      ¬ f.futureReach = min lastStep f.exactReach := by
  decide

/-- A reach that is cut off in an operand and again at the root, where an interval that ends at
offset one makes up for the step that is taken; and the same operator over an interval that ends
at offset zero. -/
theorem release_futureReach_saturates :
    let left : Formula := unary .finally (.point 18446744073709551615) (var 0)
    let f : Formula := binary .release left ⟨0, 1, by decide⟩ (var 1)
    let g : Formula := binary .release left (.point 0) (var 1)
    (∀ h ∈ f.preorder, ¬ h.LosesStep) ∧ f.futureReach = min lastStep f.exactReach ∧
      g.LosesStep ∧ (∀ h ∈ g.preorder.tail, ¬ h.LosesStep) ∧
      g.futureReach = lastStep - 1 ∧ min lastStep g.exactReach = lastStep := by
  intro left f g
  have hf : ∀ h ∈ f.preorder, ¬ h.LosesStep := by decide
  have hg : g.LosesStep := by decide
  have hbelow : ∀ h ∈ g.preorder.tail, ¬ h.LosesStep := by decide
  have hexact := (futureReach_saturates f).2.2.1 hf
  have hshort := (futureReach_saturates g).2.2.2 hg hbelow
  exact ⟨hf, hexact, hg, hbelow, hshort⟩

end MissionTime.Formula
