import MissionTime.Proofs.WindowSimulation

/-!
# Windows as Traces of Their Own

The value of a formula on a window is its value on the trace that consists of the steps of the
window. What comes before the window or after it does not matter, and neither does where in the
trace it stands.

The two evaluations count steps from different ends: the one adds offsets to the start of the
window, and the other to zero. Their windows are related if they lie equally far from the two
starts, and all sums differ by the same number then.

## Main definitions

* `Trace.window`: the steps of a window, cut to the trace, as a trace.

## Main results

* `WindowSimulation.of_sameBits`: windows of one length with the same bits.
* `Formula.evaluateWindow_eq_evaluate_window`: a window is a trace of its own.
-/

namespace MissionTime

variable {σ τ : Type}

theorem Trace.size_slice (t : Trace σ) (start stop : Nat) :
    (t.slice start stop).size = min stop t.size - start :=
  Array.size_extract

variable [State σ] [State τ]

/-! ### Windows with the same bits -/

/-- Windows of one length with the same bits are related at equal distances from their
starts. -/
theorem WindowSimulation.of_sameBits {t₁ : Trace σ} {t₂ : Trace τ} {start₁ start₂ length : Nat}
    (hbits : ∀ k < length, ∀ id, t₁.bit? (start₁ + k) id = t₂.bit? (start₂ + k) id) :
    WindowSimulation t₁ (start₁ + length) t₂ (start₂ + length)
      fun _ b₁ b₂ => ∃ k, b₁ = start₁ + k ∧ b₂ = start₂ + k where
  var := by
    rintro id _ _ ⟨k, rfl, rfl⟩
    simp only [Formula.holds_var_iff, Nat.add_lt_add_iff_left]
    exact and_congr_right fun hk => by rw [hbits k hk]
  neg h := h
  connective h := ⟨h, h⟩
  unary := by
    rintro op I x _ _ d ⟨k, rfl, rfl⟩ -
    exact ⟨by omega, fun _ => ⟨k + d, by omega, by omega⟩⟩
  binary := by
    rintro op l I r _ _ d ⟨k, rfl, rfl⟩ -
    exact ⟨by omega, fun _ => ⟨k + d, by omega, by omega⟩⟩
  left := by
    rintro op l I r _ _ c ⟨k, rfl, rfl⟩ - - -
    exact ⟨k + c, by omega, by omega⟩

/-- The evaluator gives windows of one length with the same bits the same value. -/
theorem Formula.eval_eq_of_sameBits (f : Formula) {t₁ : Trace σ} {t₂ : Trace τ}
    {start₁ start₂ length : Nat} (h₁ : start₁ + length ≤ lastStep)
    (h₂ : start₂ + length ≤ lastStep)
    (hbits : ∀ k < length, ∀ id, t₁.bit? (start₁ + k) id = t₂.bit? (start₂ + k) id) :
    f.eval t₁ (start₁ + length) start₁ = f.eval t₂ (start₂ + length) start₂ :=
  (WindowSimulation.of_sameBits hbits).eval_eq h₁ h₂ f ⟨0, rfl, rfl⟩

/-! ### The steps of a window -/

namespace Trace

/-- The steps of a slice are those of the trace from its start on. -/
theorem bit?_slice (t : Trace σ) {start stop k : Nat} (hk : k < (t.slice start stop).size)
    (id : Nat) : (t.slice start stop).bit? k id = t.bit? (start + k) id := by
  rw [size_slice] at hk
  have hget : (t.slice start stop).get? k = t.get? (start + k) :=
    Array.getElem?_extract.trans (if_pos hk)
  rw [bit?, bit?, hget]

/-- The steps of the window `[start, stop)` as a trace of their own. A window that goes past
the end of the trace ends there, and one whose bounds are not in order is empty. -/
def window (t : Trace σ) (start stop : Nat) : Trace σ :=
  let stop := min stop t.size
  t.slice (min start stop) stop

end Trace

/-- A position that is given as a word comes no later than the last step. -/
theorem toNat_le_lastStep (i : UInt64) : i.toNat ≤ lastStep :=
  Nat.le_sub_one_of_lt i.toNat_lt_size

namespace Formula

/-- On a window whose end is a position, a formula has the value that it has on the steps of the
window. -/
theorem evaluateWindow_eq_evaluate (f : Formula) (t : Trace σ) (start : Nat) {stop : Nat}
    (h : stop ≤ lastStep) :
    f.evaluateWindow t start stop = f.evaluate (t.window start stop) := by
  have hsize : (t.window start stop).size =
      min stop t.size - min start (min stop t.size) := by
    rw [Trace.window, Trace.size_slice, Nat.min_assoc, Nat.min_self]
  have hstop : min start (min stop t.size) + (t.window start stop).size = min stop t.size := by
    omega
  have heval : f.eval t (min start (min stop t.size) + (t.window start stop).size)
      (min start (min stop t.size)) =
        f.eval (t.window start stop) (0 + (t.window start stop).size) 0 :=
    f.eval_eq_of_sameBits (by omega) (by omega)
      fun k hk id => by rw [Nat.zero_add, Trace.window, Trace.bit?_slice t hk]
  rw [hstop, Nat.zero_add] at heval
  simpa only [evaluate, evaluateWindow, Nat.min_self, Nat.zero_min] using heval

/-- **A window is a trace of its own.** The value of a formula on a window, with any bounds, is
its value on the trace of the steps of the window. So it is the same on all windows with these
steps, whatever trace they are a part of and wherever they stand in it. -/
theorem evaluateWindow_eq_evaluate_window (f : Formula) (t : Trace σ) (start stop : UInt64) :
    f.evaluateWindow t start.toNat stop.toNat =
        f.evaluate (t.window start.toNat stop.toNat) ∧
      ∀ (t' : Trace σ) (start' stop' : UInt64),
        t'.window start'.toNat stop'.toNat = t.window start.toNat stop.toNat →
          f.evaluateWindow t' start'.toNat stop'.toNat =
            f.evaluateWindow t start.toNat stop.toNat := by
  have hwindow := f.evaluateWindow_eq_evaluate t start.toNat (toNat_le_lastStep stop)
  refine ⟨hwindow, fun t' start' stop' hsteps => ?_⟩
  rw [f.evaluateWindow_eq_evaluate t' start'.toNat (toNat_le_lastStep stop'), hsteps, hwindow]

/-- A window that goes past the end of its trace, and the same steps in the middle of another
one. -/
theorem evaluateWindow_eq_of_same_steps :
    let f : Formula := unary .globally ⟨0, 1, by decide⟩ (var 0)
    let t : Trace (List Bool) := .ofList [[false], [true], [true, false]]
    let t' : Trace (List Bool) := .ofList [[true], [false], [true], [true, false], [false]]
    t'.window 2 4 = t.window 1 9 ∧ f.evaluateWindow t 1 9 = f.evaluate (t.window 1 9) ∧
      f.evaluateWindow t' 2 4 = f.evaluateWindow t 1 9 := by
  intro f t t'
  have hsteps : t'.window 2 4 = t.window 1 9 := by decide
  obtain ⟨hwindow, hsame⟩ := evaluateWindow_eq_evaluate_window f t 1 9
  exact ⟨hsteps, hwindow, hsame t' 2 4 hsteps⟩

end Formula

end MissionTime
