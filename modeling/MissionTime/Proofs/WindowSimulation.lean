import MissionTime.Proofs.Satisfaction

/-!
# Simulation between Windows

What a formula says about a window depends on the steps of the window only by their distance
from its start. So two windows can be compared, of one trace or of two, even with different
types of states: if they correspond step by step as far as the formula looks, it has the same
value on both. How far that is differs from use to use, and is left to a relation between
starts of windows, one for each formula, that is to be kept from a formula to its operands.

## Main definitions

* `Interval.Contains`: the offsets of an interval.
* `Trace.bit?`: the bit of a variable at a step of a trace.
* `WindowSimulation`: relations under which formulas cannot tell two windows apart.

## Main results

* `Formula.holds_finally_iff`, `holds_globally_iff`, `holds_until_iff`, `holds_release_iff`:
  the temporal operators as quantifiers over offsets.
* `WindowSimulation.holds_iff`, `WindowSimulation.eval_eq`: a formula has the same value on
  windows that are related.
-/

namespace MissionTime

variable {σ τ : Type} [State σ] [State τ]

/-! ### Offsets -/

/-- The offsets of an interval. -/
structure Interval.Contains (I : Interval) (d : Nat) : Prop where
  lower_le : I.lower.toNat ≤ d
  le_upper : d ≤ I.upper.toNat

/-- The covered steps are those at the offsets of the interval, as far as the window goes. -/
theorem Interval.covers_add_iff (I : Interval) (start stop d : Nat) :
    I.Covers start stop (start + d) ↔ I.Contains d ∧ start + d < stop := by
  constructor
  · rintro ⟨hlower, hupper, hstop⟩
    exact ⟨⟨by omega, by omega⟩, hstop⟩
  · rintro ⟨⟨hlower, hupper⟩, hstop⟩
    exact ⟨by omega, by omega, hstop⟩

/-- A covered step has an offset. -/
theorem Interval.Covers.exists_offset {I : Interval} {start stop i : Nat}
    (h : I.Covers start stop i) : ∃ d, i = start + d :=
  Nat.exists_eq_add_of_le (Nat.le_trans (Nat.le_add_right start _) h.lower_le)

namespace Formula

variable (t : Trace σ) (stop start : Nat) (I : Interval) (l r x : Formula)

/-- `finally` asks for an offset in the window at which its operand holds. -/
theorem holds_finally_iff :
    (unary .finally I x).Holds t stop start ↔
      ∃ d, I.Contains d ∧ start + d < stop ∧ x.Holds t stop (start + d) := by
  constructor
  · rintro ⟨i, hi, hx⟩
    obtain ⟨d, rfl⟩ := hi.exists_offset
    obtain ⟨hd, hstop⟩ := (I.covers_add_iff start stop d).mp hi
    exact ⟨d, hd, hstop, hx⟩
  · rintro ⟨d, hd, hstop, hx⟩
    exact ⟨start + d, (I.covers_add_iff start stop d).mpr ⟨hd, hstop⟩, hx⟩

/-- `globally` asks for its operand to hold at every offset in the window. -/
theorem holds_globally_iff :
    (unary .globally I x).Holds t stop start ↔
      ∀ d, I.Contains d → start + d < stop → x.Holds t stop (start + d) := by
  constructor
  · intro h d hd hstop
    exact h _ ((I.covers_add_iff start stop d).mpr ⟨hd, hstop⟩)
  · intro h i hi
    obtain ⟨d, rfl⟩ := hi.exists_offset
    obtain ⟨hd, hstop⟩ := (I.covers_add_iff start stop d).mp hi
    exact h d hd hstop

/-- `until` asks for an offset in the window at which its right operand holds, with the left
one holding at the smaller offsets of the interval. -/
theorem holds_until_iff :
    (binary .until l I r).Holds t stop start ↔
      ∃ d, I.Contains d ∧ start + d < stop ∧ r.Holds t stop (start + d) ∧
        ∀ c, I.lower.toNat ≤ c → c < d → l.Holds t stop (start + c) := by
  constructor
  · rintro ⟨i, hi, hr, hl⟩
    obtain ⟨d, rfl⟩ := hi.exists_offset
    obtain ⟨hd, hstop⟩ := (I.covers_add_iff start stop d).mp hi
    exact ⟨d, hd, hstop, hr, fun c hc hcd => hl _ (by omega) (by omega)⟩
  · rintro ⟨d, hd, hstop, hr, hl⟩
    refine ⟨start + d, (I.covers_add_iff start stop d).mpr ⟨hd, hstop⟩, hr, fun j hj hji => ?_⟩
    obtain ⟨c, rfl⟩ : ∃ c, j = start + c := Nat.exists_eq_add_of_le (by omega)
    exact hl c (by omega) (by omega)

/-- `release` asks at every offset in the window for its right operand to hold, or for the left
one to hold at a smaller offset of the interval. -/
theorem holds_release_iff :
    (binary .release l I r).Holds t stop start ↔
      ∀ d, I.Contains d → start + d < stop → r.Holds t stop (start + d) ∨
        ∃ c, I.lower.toNat ≤ c ∧ c < d ∧ l.Holds t stop (start + c) := by
  constructor
  · intro h d hd hstop
    refine (h _ ((I.covers_add_iff start stop d).mpr ⟨hd, hstop⟩)).imp_right ?_
    rintro ⟨k, hk, hkd, hl⟩
    obtain ⟨c, rfl⟩ : ∃ c, k = start + c := Nat.exists_eq_add_of_le (by omega)
    exact ⟨c, by omega, by omega, hl⟩
  · intro h i hi
    obtain ⟨d, rfl⟩ := hi.exists_offset
    obtain ⟨hd, hstop⟩ := (I.covers_add_iff start stop d).mp hi
    refine (h d hd hstop).imp_right ?_
    rintro ⟨c, hc, hcd, hl⟩
    exact ⟨start + c, by omega, by omega, hl⟩

end Formula

/-! ### Bits of a trace -/

/-- The bit of a variable at a step, if the trace has that step and the state that variable. -/
def Trace.bit? (t : Trace σ) (i id : Nat) : Option Bool :=
  (t.get? i).bind fun state => State.bit? state id

/-- A variable holds on a window if the window has a first step and the bit there is true. -/
theorem Formula.holds_var_iff (id : UInt32) (t : Trace σ) (stop start : Nat) :
    (var id).Holds t stop start ↔ start < stop ∧ t.bit? start id.toNat = some true := by
  simp only [Holds, Trace.bit?, Trace.get?, Option.bind_eq_some_iff]

/-! ### Simulation -/

/-- A relation between the starts of windows, for each formula, that is kept from a formula to
its operands: `R f start₁ start₂` relates the window `[start₁, stop₁)` of one trace and the
window `[start₂, stop₂)` of another one. Related windows agree on variables; they reach the
same offsets of an interval, and from these offsets on, their rests are related for the operand
that is considered there. The left operand of a binary temporal operator is never considered at
the last offset. -/
structure WindowSimulation (t₁ : Trace σ) (stop₁ : Nat) (t₂ : Trace τ) (stop₂ : Nat)
    (R : Formula → Nat → Nat → Prop) : Prop where
  var : ∀ {id start₁ start₂}, R (.var id) start₁ start₂ →
    ((Formula.var id).Holds t₁ stop₁ start₁ ↔ (Formula.var id).Holds t₂ stop₂ start₂)
  neg : ∀ {x start₁ start₂}, R (.neg x) start₁ start₂ → R x start₁ start₂
  connective : ∀ {op l r start₁ start₂}, R (.connective op l r) start₁ start₂ →
    R l start₁ start₂ ∧ R r start₁ start₂
  unary : ∀ {op I x start₁ start₂ d}, R (.unary op I x) start₁ start₂ → I.Contains d →
    (start₁ + d < stop₁ ↔ start₂ + d < stop₂) ∧
      (start₁ + d < stop₁ → R x (start₁ + d) (start₂ + d))
  binary : ∀ {op l I r start₁ start₂ d}, R (.binary op l I r) start₁ start₂ → I.Contains d →
    (start₁ + d < stop₁ ↔ start₂ + d < stop₂) ∧
      (start₁ + d < stop₁ → R r (start₁ + d) (start₂ + d))
  left : ∀ {op l I r start₁ start₂ c}, R (.binary op l I r) start₁ start₂ →
    I.lower.toNat ≤ c → c < I.upper.toNat → start₁ + c < stop₁ → R l (start₁ + c) (start₂ + c)

namespace WindowSimulation

variable {t₁ : Trace σ} {stop₁ : Nat} {t₂ : Trace τ} {stop₂ : Nat}
  {R : Formula → Nat → Nat → Prop}

/-- **A formula cannot tell related windows apart.** Induction on the formula, for all starts
at once. -/
theorem holds_iff (hR : WindowSimulation t₁ stop₁ t₂ stop₂ R) (f : Formula)
    {start₁ start₂ : Nat} (h : R f start₁ start₂) :
    f.Holds t₁ stop₁ start₁ ↔ f.Holds t₂ stop₂ start₂ := by
  induction f generalizing start₁ start₂ with
  | const value => exact Iff.rfl
  | var id => exact hR.var h
  | neg x ih => exact not_congr (ih (hR.neg h))
  | connective op l r ihl ihr =>
      have hl := ihl (hR.connective h).1
      have hr := ihr (hR.connective h).2
      cases op <;> simp only [Formula.Holds, hl, hr]
  | unary op I x ih =>
      have hreach {d : Nat} (hd : I.Contains d) := (hR.unary h hd).1
      have hx {d : Nat} (hd : I.Contains d) (hstop : start₁ + d < stop₁) :=
        ih ((hR.unary h hd).2 hstop)
      cases op with
      | «finally» =>
          simp only [Formula.holds_finally_iff]
          refine exists_congr fun d => and_congr_right fun hd => ?_
          rw [← hreach hd]
          exact and_congr_right fun hstop => hx hd hstop
      | globally =>
          simp only [Formula.holds_globally_iff]
          refine forall_congr' fun d => imp_congr_right fun hd => ?_
          rw [← hreach hd]
          exact imp_congr_right fun hstop => hx hd hstop
  | binary op l I r ihl ihr =>
      have hreach {d : Nat} (hd : I.Contains d) := (hR.binary h hd).1
      have hr {d : Nat} (hd : I.Contains d) (hstop : start₁ + d < stop₁) :=
        ihr ((hR.binary h hd).2 hstop)
      have hl {c d : Nat} (hd : I.Contains d) (hstop : start₁ + d < stop₁)
          (hc : I.lower.toNat ≤ c) (hcd : c < d) :=
        ihl (hR.left h hc (Nat.lt_of_lt_of_le hcd hd.le_upper) (by omega))
      cases op with
      | «until» =>
          simp only [Formula.holds_until_iff]
          refine exists_congr fun d => and_congr_right fun hd => ?_
          rw [← hreach hd]
          refine and_congr_right fun hstop => and_congr (hr hd hstop) ?_
          exact forall_congr' fun c => imp_congr_right fun hc => imp_congr_right fun hcd =>
            hl hd hstop hc hcd
      | release =>
          simp only [Formula.holds_release_iff]
          refine forall_congr' fun d => imp_congr_right fun hd => ?_
          rw [← hreach hd]
          refine imp_congr_right fun hstop => or_congr (hr hd hstop) ?_
          exact exists_congr fun c => and_congr_right fun hc => and_congr_right fun hcd =>
            hl hd hstop hc hcd

/-- The evaluator gives related windows the same value. -/
theorem eval_eq (hR : WindowSimulation t₁ stop₁ t₂ stop₂ R) (h₁ : stop₁ ≤ lastStep)
    (h₂ : stop₂ ≤ lastStep) (f : Formula) {start₁ start₂ : Nat} (h : R f start₁ start₂) :
    f.eval t₁ stop₁ start₁ = f.eval t₂ stop₂ start₂ := by
  rw [Bool.eq_iff_iff, f.eval_iff_holds t₁ h₁, f.eval_iff_holds t₂ h₂]
  exact hR.holds_iff f h

end WindowSimulation

end MissionTime
