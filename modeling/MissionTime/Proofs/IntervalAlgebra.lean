import MissionTime.Proofs.Satisfaction

/-!
# Intervals of Nested and of Wider Operators

What a temporal operator says depends on the steps that its interval covers, and so it obeys the
laws of these sets of steps. An interval within another one covers fewer steps, which makes
`finally` weaker and `globally` stronger; `until` and `release` follow if the lower offset, from
which on they look at their left operand, stays where it is. Where one `finally` stands directly
below another one, the two cover together what the sum of their intervals covers. Each step of it
is reached in two strides, one for each interval, and the first stride stays within the window if
the second one does.

The laws hold on all windows. Where a window ends inside an interval or before it, both sides lose
the same steps, and where a sum of offsets is no position any more, the window has ended.

## Main definitions

* `Interval.Within`: an interval within another one.
* `Interval.sum`: the interval of the sums of two offsets.

## Main results

* `Interval.covers_sum_iff`: the steps that a sum covers are those reached in two strides.
* `Formula.eval_finally_finally`, `Formula.eval_globally_globally`: nested operators.
* `Formula.evaluateWindow_interval_algebra`: the laws on windows of a trace.
-/

namespace MissionTime

/-! ### Intervals and what they cover -/

namespace Interval

/-- An interval lies **within** another one if its offsets are among those of the other. -/
structure Within (I J : Interval) : Prop where
  lower_le : J.lower ≤ I.lower
  upper_le : I.upper ≤ J.upper

/-- A wider interval covers more steps. -/
theorem Within.covers {I J : Interval} (h : I.Within J) {start stop i : Nat}
    (hi : I.Covers start stop i) : J.Covers start stop i := by
  have hlower : J.lower.toNat ≤ I.lower.toNat := UInt64.le_iff_toNat_le.mp h.lower_le
  have hupper : I.upper.toNat ≤ J.upper.toNat := UInt64.le_iff_toNat_le.mp h.upper_le
  have hfirst := hi.lower_le
  have hlast := hi.le_upper
  exact ⟨by omega, by omega, hi.lt_stop⟩

/-- Offsets whose sum is a 64-bit word are added as numbers. -/
theorem toNat_add_of_lt {a b : UInt64} (h : a.toNat + b.toNat < UInt64.size) :
    (a + b).toNat = a.toNat + b.toNat := by
  rw [UInt64.toNat_add]
  exact Nat.mod_eq_of_lt h

variable (I J : Interval) (h : I.upper.toNat + J.upper.toNat < UInt64.size)

include h in
theorem lower_add_lower_lt : I.lower.toNat + J.lower.toNat < UInt64.size := by
  have hI : I.lower.toNat ≤ I.upper.toNat := UInt64.le_iff_toNat_le.mp I.lower_le_upper
  have hJ : J.lower.toNat ≤ J.upper.toNat := UInt64.le_iff_toNat_le.mp J.lower_le_upper
  omega

/-- The **sum** of two intervals has the sums of their bounds. They have to be 64-bit words. -/
def sum : Interval where
  lower := I.lower + J.lower
  upper := I.upper + J.upper
  lower_le_upper := by
    have hI : I.lower.toNat ≤ I.upper.toNat := UInt64.le_iff_toNat_le.mp I.lower_le_upper
    have hJ : J.lower.toNat ≤ J.upper.toNat := UInt64.le_iff_toNat_le.mp J.lower_le_upper
    rw [UInt64.le_iff_toNat_le, toNat_add_of_lt h, toNat_add_of_lt (lower_add_lower_lt I J h)]
    omega

theorem toNat_sum_lower : (I.sum J h).lower.toNat = I.lower.toNat + J.lower.toNat :=
  toNat_add_of_lt (lower_add_lower_lt I J h)

theorem toNat_sum_upper : (I.sum J h).upper.toNat = I.upper.toNat + J.upper.toNat :=
  toNat_add_of_lt h

/-- **What a sum covers** is reached in two strides, and the first one does not leave the window.
It goes as far as its interval allows and leaves at least the lower offset for the second. -/
theorem covers_sum_iff (start stop i : Nat) :
    (I.sum J h).Covers start stop i ↔ ∃ m, I.Covers start stop m ∧ J.Covers m stop i := by
  have hlower := I.toNat_sum_lower J h
  have hupper := I.toNat_sum_upper J h
  have hI : I.lower.toNat ≤ I.upper.toNat := UInt64.le_iff_toNat_le.mp I.lower_le_upper
  have hJ : J.lower.toNat ≤ J.upper.toNat := UInt64.le_iff_toNat_le.mp J.lower_le_upper
  constructor
  · rintro ⟨hfirst, hlast, hstop⟩
    refine ⟨min (start + I.upper.toNat) (i - J.lower.toNat), ⟨?_, ?_, ?_⟩, ⟨?_, ?_, hstop⟩⟩ <;>
      omega
  · rintro ⟨m, ⟨hfirst, hlast, -⟩, hfirst', hlast', hstop⟩
    exact ⟨by omega, by omega, hstop⟩

end Interval

namespace Formula

variable {σ : Type} [State σ] (t : Trace σ) (stop start : Nat) {I J : Interval}
  (l r x : Formula)

/-! ### Wider intervals -/

theorem eval_finally_of_within (h : I.Within J)
    (hI : (unary .finally I x).eval t stop start = true) :
    (unary .finally J x).eval t stop start = true := by
  rw [eval_finally_iff_of_numbered] at hI ⊢
  obtain ⟨i, hi, hx⟩ := hI
  exact ⟨i, h.covers hi, hx⟩

/-- What is true at all steps of an interval is true at all steps of one within it. -/
theorem eval_globally_of_within (h : I.Within J)
    (hJ : (unary .globally J x).eval t stop start = true) :
    (unary .globally I x).eval t stop start = true := by
  rw [eval_globally, Bool.not_eq_true', ← Bool.not_eq_true] at hJ ⊢
  exact fun hI => hJ (eval_finally_of_within t stop start (neg x) h hI)

/-- An `until` keeps its witness if only its upper bound is raised. -/
theorem eval_until_of_within (h : I.Within J) (hlower : I.lower = J.lower)
    (hI : (binary .until l I r).eval t stop start = true) :
    (binary .until l J r).eval t stop start = true := by
  rw [eval_until_iff_of_numbered] at hI ⊢
  obtain ⟨i, hi, hr, hl⟩ := hI
  exact ⟨i, h.covers hi, hr, hlower ▸ hl⟩

theorem eval_release_of_within (h : I.Within J) (hlower : I.lower = J.lower)
    (hJ : (binary .release l J r).eval t stop start = true) :
    (binary .release l I r).eval t stop start = true := by
  rw [eval_release, Bool.not_eq_true', ← Bool.not_eq_true] at hJ ⊢
  exact fun hI => hJ (eval_until_of_within t stop start (neg l) (neg r) h hlower hI)

/-! ### Nested operators -/

variable (I J) (h : I.upper.toNat + J.upper.toNat < UInt64.size)

/-- **Nested `finally`** are one over the sum of their intervals. -/
theorem eval_finally_finally :
    (unary .finally I (unary .finally J x)).eval t stop start =
      (unary .finally (I.sum J h) x).eval t stop start := by
  rw [Bool.eq_iff_iff]
  simp only [eval_finally_iff_of_numbered, I.covers_sum_iff J h]
  constructor
  · rintro ⟨m, hm, i, hi, hx⟩
    exact ⟨i, ⟨m, hm, hi⟩, hx⟩
  · rintro ⟨i, ⟨m, hm, hi⟩, hx⟩
    exact ⟨m, hm, i, hi, hx⟩

/-- **Nested `globally`** are one over the sum of their intervals, by duality. -/
theorem eval_globally_globally :
    (unary .globally I (unary .globally J x)).eval t stop start =
      (unary .globally (I.sum J h) x).eval t stop start := by
  have hinner (i : Nat) : (neg (unary .globally J x)).eval t stop i =
      (unary .finally J (neg x)).eval t stop i := by
    rw [eval, eval_globally, Bool.not_not]
  rw [eval_globally, eval_unary_congr hinner, eval_finally_finally t stop start I J (neg x) h,
    eval_globally]

/-! ### Windows of a trace -/

/-- **The algebra of intervals.** On every window of a trace, a `finally` stays true over a wider
interval and a `globally` over one within its own. So do an `until` whose upper bound is raised and
a `release` whose upper bound is lowered. And a `finally` directly below another one is the same as
one over the sum of the two intervals, if its bounds are 64-bit words, and likewise for
`globally`. -/
theorem evaluateWindow_interval_algebra (x y : Formula) (t : Trace σ) (start stop : Nat) :
    (∀ I J : Interval, J.lower ≤ I.lower → I.upper ≤ J.upper →
      ((unary .finally I x).evaluateWindow t start stop = true →
        (unary .finally J x).evaluateWindow t start stop = true) ∧
      ((unary .globally J x).evaluateWindow t start stop = true →
        (unary .globally I x).evaluateWindow t start stop = true)) ∧
    (∀ I J : Interval, I.lower = J.lower → I.upper ≤ J.upper →
      ((binary .until x I y).evaluateWindow t start stop = true →
        (binary .until x J y).evaluateWindow t start stop = true) ∧
      ((binary .release x J y).evaluateWindow t start stop = true →
        (binary .release x I y).evaluateWindow t start stop = true)) ∧
    ∀ (I J : Interval) (h : I.upper.toNat + J.upper.toNat < UInt64.size),
      (unary .finally I (unary .finally J x)).evaluateWindow t start stop =
        (unary .finally (I.sum J h) x).evaluateWindow t start stop ∧
      (unary .globally I (unary .globally J x)).evaluateWindow t start stop =
        (unary .globally (I.sum J h) x).evaluateWindow t start stop := by
  refine ⟨fun I J hlower hupper => ?_, fun I J hlower hupper => ?_, fun I J h => ?_⟩
  · have hwithin : I.Within J := ⟨hlower, hupper⟩
    exact ⟨eval_finally_of_within t _ _ x hwithin, eval_globally_of_within t _ _ x hwithin⟩
  · have hwithin : I.Within J := ⟨hlower ▸ UInt64.le_refl _, hupper⟩
    exact ⟨eval_until_of_within t _ _ x y hwithin hlower,
      eval_release_of_within t _ _ x y hwithin hlower⟩
  · exact ⟨eval_finally_finally t _ _ I J x h, eval_globally_globally t _ _ I J x h⟩

/-- On a window of four steps: a witness at the last step of an interval that is made wider, and
an interval up to the last number but one below which another one goes beyond the window. -/
theorem interval_algebra_on_short_window :
    let t : Trace (List Bool) :=
      .ofList [[true, false], [true, false], [true, false], [false, true]]
    let I : Interval := ⟨1, 18446744073709551613, by decide⟩
    let J : Interval := ⟨1, 2, by decide⟩
    let K : Interval := ⟨1, 18446744073709551615, by decide⟩
    J.lower = I.lower ∧ J.upper ≤ I.upper ∧
      (binary .until (var 0) J (var 1)).evaluateWindow t 1 9 = true ∧
      (binary .until (var 0) I (var 1)).evaluateWindow t 1 9 = true ∧
      K.lower ≤ I.lower ∧ I.upper ≤ K.upper ∧
      (unary .finally I (var 1)).evaluateWindow t 1 9 = true ∧
      (unary .finally K (var 1)).evaluateWindow t 1 9 = true ∧
      ∃ h : I.upper.toNat + J.upper.toNat < UInt64.size,
        (unary .globally I (unary .globally J (var 0))).evaluateWindow t 1 9 =
          (unary .globally (I.sum J h) (var 0)).evaluateWindow t 1 9 := by
  intro t I J K
  obtain ⟨hwider, hraised, hnested⟩ := evaluateWindow_interval_algebra (var 0) (var 1) t 1 9
  obtain ⟨hwider', -, -⟩ := evaluateWindow_interval_algebra (var 1) (var 1) t 1 9
  have hupper : J.upper ≤ I.upper := by decide
  have hJ : (binary .until (var 0) J (var 1)).evaluateWindow t 1 9 = true := by decide
  have hlower : K.lower ≤ I.lower := by decide
  have hupper' : I.upper ≤ K.upper := by decide
  have hI : (unary .finally I (var 1)).evaluateWindow t 1 9 = true := by decide
  have hsum : I.upper.toNat + J.upper.toNat < UInt64.size := by decide
  exact ⟨rfl, hupper, hJ, (hraised J I rfl hupper).1 hJ, hlower, hupper', hI,
    (hwider' I K hlower hupper').1 hI, hsum, (hnested I J hsum).2⟩

end Formula

end MissionTime
