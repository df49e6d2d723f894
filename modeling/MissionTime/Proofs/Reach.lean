import MissionTime.Formula.Measure
import MissionTime.Proofs.WindowSimulation

/-!
# Future Reach

The future reach of a formula is the number of steps on which its value can depend. Two windows
that are longer than that, and that have the same bits at the steps within the reach, give the
formula the same value, however they go on.

Only constants make the reach too short by one. A constant needs no step and has reach zero,
while a temporal operator over it still looks whether the step at its lower bound exists. In a
formula without constants every operand needs at least one step, so that a window that is just
as long as the reach has all the steps that are asked for.

The sum of an offset and the reach of an operand at this offset is at most the reach of the
operator, as long as sums are not cut off. For the left operand of a binary temporal operator
this holds at all offsets but the last one, where it is not examined.

## Main definitions

* `Formula.SettledBy`: window lengths that settle the value of a formula.
* `Formula.AlikeWithin`: windows that look the same within the reach of a formula.

## Main results

* `Formula.AlikeWithin.operand`: what is alike for a formula is alike for its operands.
* `Formula.evaluateWindow_eq_of_alike_within_reach`: future reach bounds what evaluation sees.
-/

namespace MissionTime

variable {σ τ : Type} [State σ] [State τ]

namespace Formula

/-- The reach of a binary temporal operator with both cases in one: the left operand counts one
step less, and the greater number decides. -/
theorem futureReach_binary (op : BinaryTemporal) (l r : Formula) (I : Interval) :
    (binary op l I r).futureReach =
      stepAfter I.upper.toNat (max (l.futureReach - 1) r.futureReach) := by
  rw [futureReach]
  congr 1
  split <;> omega

/-! ### Lengths that settle a formula -/

/-- A window of `length` steps **settles** a formula if it is longer than the reach of the
formula. If no constant occurs in the formula and its reach is not cut off, it needs to be no
longer than the reach. -/
def SettledBy (f : Formula) (length : Nat) : Prop :=
  f.futureReach < length ∨
    f.count .constant = 0 ∧ f.futureReach < lastStep ∧ f.futureReach ≤ length

instance (f : Formula) (length : Nat) : Decidable (f.SettledBy length) :=
  inferInstanceAs (Decidable (_ ∨ _))

/-- The reach of a formula is not cut off if a window can settle it. -/
theorem SettledBy.futureReach_lt {f : Formula} {length : Nat} (h : f.SettledBy length)
    (hlength : length ≤ lastStep) : f.futureReach < lastStep := by
  obtain hlong | ⟨-, hlast, -⟩ := h
  · exact Nat.lt_of_lt_of_le hlong hlength
  · exact hlast

theorem one_le_lastStep : 1 ≤ lastStep := by decide

/-- Without constants a formula needs at least one step. -/
theorem one_le_futureReach {f : Formula} (h : f.count .constant = 0) : 1 ≤ f.futureReach := by
  induction f with
  | const value => cases h
  | var id => exact Nat.le_refl 1
  | neg x ih => exact ih (Nat.eq_zero_of_add_eq_zero_left h)
  | connective op l r ihl ihr =>
      have hl : l.count .constant = 0 := by simp only [count] at h; omega
      exact Nat.le_trans (ihl hl) (Nat.le_max_left _ _)
  | unary op I x ih =>
      have hx := ih (Nat.eq_zero_of_add_eq_zero_left h)
      exact Nat.le_min.mpr ⟨Nat.le_add_left_of_le hx, one_le_lastStep⟩
  | binary op l I r ihl ihr =>
      have hr := ihr (Nat.eq_zero_of_add_eq_zero_left h)
      rw [futureReach_binary, stepAfter]
      exact Nat.le_min.mpr ⟨by omega, one_le_lastStep⟩

/-! ### The reach of operands -/

/-- An operand at an offset of the interval reaches no further than the operator. -/
theorem futureReach_operand_le {op : UnaryTemporal} {I : Interval} {x : Formula} {d : Nat}
    (h : (unary op I x).futureReach < lastStep) (hd : d ≤ I.upper.toNat) :
    d + x.futureReach ≤ (unary op I x).futureReach := by
  simp only [futureReach, stepAfter] at h ⊢
  omega

/-- The same for the right operand of a binary operator. -/
theorem futureReach_right_le {op : BinaryTemporal} {l r : Formula} {I : Interval} {d : Nat}
    (h : (binary op l I r).futureReach < lastStep) (hd : d ≤ I.upper.toNat) :
    d + r.futureReach ≤ (binary op l I r).futureReach := by
  rw [futureReach_binary, stepAfter] at h ⊢
  omega

/-- The left operand reaches no further than the operator at all offsets but the last. -/
theorem futureReach_left_le {op : BinaryTemporal} {l r : Formula} {I : Interval} {c : Nat}
    (h : (binary op l I r).futureReach < lastStep) (hc : c < I.upper.toNat) :
    c + l.futureReach ≤ (binary op l I r).futureReach := by
  rw [futureReach_binary, stepAfter] at h ⊢
  omega

/-! ### Windows that are alike within the reach -/

/-- The windows `[start₁, stop₁)` and `[start₂, stop₂)` of two traces **look alike** within the
reach of a formula: both settle it, and they have the same bits at the steps within its
reach. -/
structure AlikeWithin (t₁ : Trace σ) (stop₁ : Nat) (t₂ : Trace τ) (stop₂ : Nat)
    (f : Formula) (start₁ start₂ : Nat) : Prop where
  settled₁ : f.SettledBy (stop₁ - start₁)
  settled₂ : f.SettledBy (stop₂ - start₂)
  bits : ∀ k < f.futureReach, ∀ id, t₁.bit? (start₁ + k) id = t₂.bit? (start₂ + k) id

/-- A window that settles a formula contains the step at which an operand is considered, and
its rest from there on settles the operand. -/
theorem SettledBy.operand {f x : Formula} {start stop d : Nat} (h : f.SettledBy (stop - start))
    (hconst : f.count .constant = 0 → x.count .constant = 0)
    (hreach : d + x.futureReach ≤ f.futureReach) :
    start + d < stop ∧ x.SettledBy (stop - (start + d)) := by
  obtain hlong | ⟨hnone, hlast, hlength⟩ := h
  · exact ⟨by omega, Or.inl (by omega)⟩
  · have hx := one_le_futureReach (hconst hnone)
    exact ⟨by omega, Or.inr ⟨hconst hnone, by omega, by omega⟩⟩

variable {t₁ : Trace σ} {stop₁ : Nat} {t₂ : Trace τ} {stop₂ : Nat}

namespace AlikeWithin

/-- **Windows that look alike to a formula look alike to its operands**, at every offset at
which the operand reaches no further than the formula. -/
theorem operand {f x : Formula} {start₁ start₂ d : Nat}
    (h : AlikeWithin t₁ stop₁ t₂ stop₂ f start₁ start₂)
    (hconst : f.count .constant = 0 → x.count .constant = 0)
    (hreach : d + x.futureReach ≤ f.futureReach) :
    (start₁ + d < stop₁ ↔ start₂ + d < stop₂) ∧
      AlikeWithin t₁ stop₁ t₂ stop₂ x (start₁ + d) (start₂ + d) := by
  obtain ⟨hstop₁, hsettled₁⟩ := h.settled₁.operand hconst hreach
  obtain ⟨hstop₂, hsettled₂⟩ := h.settled₂.operand hconst hreach
  refine ⟨iff_of_true hstop₁ hstop₂, hsettled₁, hsettled₂, fun k hk id => ?_⟩
  rw [Nat.add_assoc, Nat.add_assoc]
  exact h.bits (d + k) (by omega) id

/-- The same at the start of the window. -/
theorem operand_zero {f x : Formula} {start₁ start₂ : Nat}
    (h : AlikeWithin t₁ stop₁ t₂ stop₂ f start₁ start₂)
    (hconst : f.count .constant = 0 → x.count .constant = 0)
    (hreach : x.futureReach ≤ f.futureReach) :
    AlikeWithin t₁ stop₁ t₂ stop₂ x start₁ start₂ :=
  (h.operand (d := 0) hconst (by omega)).2

/-- **Windows that look alike simulate each other.** -/
theorem simulation (h₁ : stop₁ ≤ lastStep) :
    WindowSimulation t₁ stop₁ t₂ stop₂ (AlikeWithin t₁ stop₁ t₂ stop₂) := by
  -- A window that settles a formula shows that no sum in its reach is cut off.
  have not_cut {f : Formula} {start₁ start₂ : Nat}
      (h : AlikeWithin t₁ stop₁ t₂ stop₂ f start₁ start₂) : f.futureReach < lastStep :=
    h.settled₁.futureReach_lt (by omega)
  constructor
  case var =>
    intro id start₁ start₂ h
    have hstop := (h.operand (x := .var id) (d := 0) (fun hf => hf) (by omega)).1
    have hbit := h.bits 0 Nat.one_pos id.toNat
    rw [Nat.add_zero, Nat.add_zero] at hstop hbit
    rw [holds_var_iff, holds_var_iff, hstop, hbit]
  case neg =>
    intro x start₁ start₂ h
    exact h.operand_zero (fun hf => by simpa [count] using hf) (Nat.le_refl _)
  case connective =>
    intro op l r start₁ start₂ h
    have hconst (hf : (Formula.connective op l r).count .constant = 0) :
        l.count .constant = 0 ∧ r.count .constant = 0 := by
      simp only [count] at hf
      omega
    exact ⟨h.operand_zero (fun hf => (hconst hf).1) (Nat.le_max_left _ _),
      h.operand_zero (fun hf => (hconst hf).2) (Nat.le_max_right _ _)⟩
  case unary =>
    intro op I x start₁ start₂ d h hd
    obtain ⟨hstop, halike⟩ := h.operand (x := x) (fun hf => Nat.eq_zero_of_add_eq_zero_left hf)
      (futureReach_operand_le (not_cut h) hd.le_upper)
    exact ⟨hstop, fun _ => halike⟩
  case binary =>
    intro op l I r start₁ start₂ d h hd
    obtain ⟨hstop, halike⟩ := h.operand (x := r) (fun hf => Nat.eq_zero_of_add_eq_zero_left hf)
      (futureReach_right_le (not_cut h) hd.le_upper)
    exact ⟨hstop, fun _ => halike⟩
  case left =>
    intro op l I r start₁ start₂ c h _ hc _
    have hconst (hf : (Formula.binary op l I r).count .constant = 0) :
        l.count .constant = 0 := by
      simp only [count] at hf
      omega
    exact (h.operand hconst (futureReach_left_le (not_cut h) hc)).2

end AlikeWithin

/-! ### What evaluation sees -/

/-- A window that settles a formula is not empty. -/
theorem SettledBy.start_lt_stop {f : Formula} {start stop : Nat}
    (h : f.SettledBy (stop - start)) : start < stop :=
  (h.operand (d := 0) (fun hf => hf) (Nat.le_of_eq (Nat.zero_add _))).1

/-- **Future reach bounds what evaluation can see.** A formula has the same value on two windows
of two traces if both settle it and the traces have the same bits at the steps of the windows
within its reach. A window settles the formula if it is longer than the reach, or as long as the
reach if there are no constants in the formula and the reach is not cut off. -/
theorem evaluateWindow_eq_of_alike_within_reach (f : Formula) (t₁ : Trace σ) (t₂ : Trace τ)
    (ht₁ : t₁.size ≤ lastStep) (ht₂ : t₂.size ≤ lastStep) {start₁ stop₁ start₂ stop₂ : Nat}
    (hstop₁ : stop₁ ≤ t₁.size) (hstop₂ : stop₂ ≤ t₂.size)
    (hsettled₁ : f.SettledBy (stop₁ - start₁)) (hsettled₂ : f.SettledBy (stop₂ - start₂))
    (hbits : ∀ k < f.futureReach, ∀ id, t₁.bit? (start₁ + k) id = t₂.bit? (start₂ + k) id) :
    f.evaluateWindow t₁ start₁ stop₁ = f.evaluateWindow t₂ start₂ stop₂ := by
  rw [f.evaluateWindow_eq_eval t₁ (Nat.le_of_lt hsettled₁.start_lt_stop) hstop₁,
    f.evaluateWindow_eq_eval t₂ (Nat.le_of_lt hsettled₂.start_lt_stop) hstop₂]
  have hlast₁ := Nat.le_trans hstop₁ ht₁
  have hlast₂ := Nat.le_trans hstop₂ ht₂
  exact (AlikeWithin.simulation hlast₁).eval_eq hlast₁ hlast₂ f ⟨hsettled₁, hsettled₂, hbits⟩

/-- Two windows that are just as long as the reach, at different places and followed by different
steps. -/
theorem until_alike_within_reach :
    let f : Formula := binary .until (var 0) ⟨0, 1, by decide⟩ (var 1)
    let t₁ : Trace (List Bool) := .ofList [[true, false], [false, true], [true, true]]
    let t₂ : Trace Step := .ofList [⟨[]⟩, ⟨[true, false]⟩, ⟨[false, true]⟩]
    f.SettledBy (2 - 0) ∧ f.SettledBy (3 - 1) ∧
      (∀ k < f.futureReach, ∀ id, t₁.bit? (0 + k) id = t₂.bit? (1 + k) id) ∧
      f.evaluateWindow t₁ 0 2 = f.evaluateWindow t₂ 1 3 := by
  intro f t₁ t₂
  have hsettled : f.SettledBy 2 := by decide
  have hbits : ∀ k < f.futureReach, ∀ id, t₁.bit? (0 + k) id = t₂.bit? (1 + k) id := by
    intro k hk id
    have hk : k < 2 := hk
    obtain rfl | rfl : k = 0 ∨ k = 1 := by omega
    · rfl
    · rfl
  exact ⟨hsettled, hsettled, hbits, evaluateWindow_eq_of_alike_within_reach f t₁ t₂ (by decide)
    (by decide) (by decide) (by decide) hsettled hsettled hbits⟩

end Formula

end MissionTime
