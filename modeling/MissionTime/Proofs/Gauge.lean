import Mathlib.Logic.Basic
import MissionTime.Parse

/-!
# The Nesting Gauge

A reading runs under a gauge that counts the unary expressions being read. Every reading of
the grammar is *balanced*: whether it succeeds or fails, it leaves the gauge as it found it. So
its outcome is a function of the gauge at the start, and outcomes compose like computations
that can fail and do nothing else.

## Main definitions

* `outcome`: what a reading comes to under a gauge.
* `Balanced`: the readings that leave the gauge as it was.

## Main results

* `outcome_bind`, `outcome_nested`: the outcomes of composed readings.
* `reading_induction`: induction along the recursion of the grammar's readings.
* `balanced_unary`, `balanced_expression`, `balanced_chain`, `balanced_formula`: the readings
  of the grammar are balanced.
-/

namespace MissionTime.Syntax

open Text

variable {α β : Type}

/-- What a reading comes to when it starts under the given gauge. -/
def outcome (m : Reading α) (gauge : Nat) : Except Failure α :=
  (m.run.run gauge).1

/-- A **balanced** reading leaves the gauge as it was, whatever it comes to. -/
def Balanced (m : Reading α) : Prop :=
  ∀ gauge, (m.run.run gauge).2 = gauge

/-! ### Runs of composed readings -/

/-- A composed reading runs its second part under the gauge that the first one leaves. -/
theorem run_bind (m : Reading α) (k : α → Reading β) (gauge : Nat) :
    (m >>= k).run.run gauge =
      match m.run.run gauge with
      | (.ok a, g) => (k a).run.run g
      | (.error e, g) => (.error e, g) := by
  simp only [ExceptT.run_bind, StateT.run_bind]
  cases m.run.run gauge with
  | mk r g => cases r <;> rfl

/-- What is done at the end is done after a success and after a failure. -/
theorem run_tryFinally (m : Reading α) (f : Nat → Nat) (gauge : Nat) :
    (tryFinally m (modify f) : Reading α).run.run gauge =
      ((m.run.run gauge).1, f (m.run.run gauge).2) := by
  have hm : m gauge = m.run.run gauge := rfl
  cases hr : m.run.run gauge with
  | mk r g =>
      rw [hr] at hm
      cases r <;>
        (simp only [tryFinally, tryFinally', ExceptT.run, ExceptT.mk, Functor.map, ExceptT.map,
          StateT.run, bind, StateT.bind, hm]; rfl)

/-- Below the limit a nested reading runs one level further down and comes back up; at the
limit it does not run. -/
theorem run_nested (s : List Token) (body : Reading α) (gauge : Nat) :
    (nested s body).run.run gauge =
      if gauge < nestingLimit then
        ((body.run.run (gauge + 1)).1, (body.run.run (gauge + 1)).2 - 1)
      else (.error ⟨s, .tooDeep⟩, gauge) := by
  have hget : (get : Reading Nat).run.run gauge = (.ok gauge, gauge) := rfl
  have hdown : (modify (· + 1) : Reading PUnit).run.run gauge = (.ok ⟨⟩, gauge + 1) := rfl
  rw [nested, run_bind, hget]
  by_cases h : gauge < nestingLimit
  · simp only [if_pos h]
    rw [run_bind, hdown]
    exact run_tryFinally body (· - 1) (gauge + 1)
  · simp only [if_neg h]
    rfl

/-! ### Balanced readings -/

theorem balanced_pure (a : α) : Balanced (pure a : Reading α) := fun _ => rfl

theorem balanced_throw (e : Failure) : Balanced (throw e : Reading α) := fun _ => rfl

/-- Balanced readings compose. -/
theorem Balanced.bind {m : Reading α} {k : α → Reading β} (hm : Balanced m)
    (hk : ∀ a, Balanced (k a)) : Balanced (m >>= k) := by
  intro gauge
  have hg := hm gauge
  rw [run_bind]
  cases hr : m.run.run gauge with
  | mk r g =>
      rw [hr] at hg
      cases r with
      | error e => exact hg
      | ok a => exact (hk a g).trans hg

/-- A level that was entered is left again. -/
theorem Balanced.nested {s : List Token} {body : Reading α} (h : Balanced body) :
    Balanced (nested s body) := by
  intro gauge
  rw [run_nested]
  split
  · simp only [h (gauge + 1), Nat.add_sub_cancel]
  · rfl

/-! ### Outcomes -/

/-- After a balanced reading, the next one starts under the same gauge. -/
theorem outcome_bind {m : Reading α} (hm : Balanced m) (k : α → Reading β) (gauge : Nat) :
    outcome (m >>= k) gauge = (outcome m gauge).bind fun a => outcome (k a) gauge := by
  have hg := hm gauge
  simp only [outcome, run_bind]
  cases hr : m.run.run gauge with
  | mk r g =>
      rw [hr] at hg
      cases r with
      | error e => rfl
      | ok a => exact congrArg (fun g' => ((k a).run.run g').1) hg

/-- Below the limit the outcome of a nested reading is that of its body one level further
down; at the limit it is a failure. -/
theorem outcome_nested (s : List Token) (body : Reading α) (gauge : Nat) :
    outcome (nested s body) gauge =
      if gauge < nestingLimit then outcome body (gauge + 1) else .error ⟨s, .tooDeep⟩ := by
  rw [outcome, run_nested]
  split <;> rfl

/-! ### Induction along the grammar -/

/-- **Induction along the recursion of the readings.** A unary expression is read from unary
and full expressions of fewer tokens; an expression of a level from one of the level below and
from a chain of fewer tokens; and a chain from operands and chains of fewer tokens. -/
theorem reading_induction {U : Expectation → List Token → Prop}
    {E : Nat → Expectation → List Token → Prop} {C : Nat → Formula → List Token → Prop}
    (hunary : ∀ what s, (∀ what' s', s'.length < s.length → U what' s') →
      (∀ s', s'.length < s.length → E loosestLevel .formula s') → U what s)
    (hzero : ∀ what s, U what s → E 0 what s)
    (hsucc : ∀ n what s, E n what s → (∀ left s', s'.length < s.length → C n left s') →
      E (n + 1) what s)
    (hchain : ∀ n left s, (∀ s', s'.length < s.length → E n .operand s') →
      (∀ left' s', s'.length < s.length → C n left' s') → C n left s)
    (s : List Token) :
    (∀ what, U what s) ∧ (∀ n what, E n what s) ∧ ∀ n left, C n left s := by
  induction hlength : s.length using Nat.strongRecOn generalizing s with
  | ind length ih =>
      subst hlength
      have hu : ∀ what, U what s := fun what =>
        hunary what s (fun what' s' hs' => (ih _ hs' s' rfl).1 what')
          fun s' hs' => (ih _ hs' s' rfl).2.1 loosestLevel .formula
      have hc : ∀ n left, C n left s := fun n left =>
        hchain n left s (fun s' hs' => (ih _ hs' s' rfl).2.1 n .operand)
          fun left' s' hs' => (ih _ hs' s' rfl).2.2 n left'
      refine ⟨hu, fun n what => ?_, hc⟩
      induction n with
      | zero => exact hzero what s (hu what)
      | succ n ihn => exact hsucc n what s ihn fun left s' hs' => (ih _ hs' s' rfl).2.2 n left

/-! ### The readings of the grammar are balanced -/

theorem balanced_expect (token : Token) (what : Expectation) (s : List Token) :
    Balanced (expect token what s) := by
  unfold expect
  split
  · split
    · exact balanced_pure _
    · exact balanced_throw _
  · exact balanced_throw _

theorem balanced_bound (what : Expectation) (s : List Token) : Balanced (bound what s) := by
  unfold bound
  split
  · split
    · exact balanced_pure _
    · exact balanced_throw _
  · exact balanced_throw _

theorem balanced_interval (s : List Token) : Balanced (interval s) := by
  unfold interval
  refine (balanced_expect _ _ _).bind fun opening => (balanced_bound _ _).bind fun lower =>
    (balanced_expect _ _ _).bind fun comma => (balanced_bound _ _).bind fun upper =>
      (balanced_expect _ _ _).bind fun closing => ?_
  split
  · exact balanced_pure _
  · exact balanced_throw _

theorem balanced_infixOfLevel (level : Nat) (s : List Token) :
    Balanced (infixOfLevel level s) := by
  unfold infixOfLevel
  split
  · split
    · exact balanced_pure _
    · exact balanced_pure _
  · split
    · exact (balanced_interval _).bind fun I => balanced_pure _
    · exact balanced_pure _
  · exact balanced_pure _

/-- **Balance.** The readings of unary expressions, of expressions and of chains leave the
gauge as it was, by induction along their recursion. -/
theorem balanced_readings (s : List Token) :
    (∀ what, Balanced (unary what s)) ∧ (∀ n what, Balanced (expression n what s)) ∧
      ∀ n left, Balanced (chain n left s) := by
  refine reading_induction (U := fun what s => Balanced (unary what s))
    (E := fun n what s => Balanced (expression n what s))
    (C := fun n left s => Balanced (chain n left s)) ?_ ?_ ?_ ?_ s
  · intro what s ihunary ihformula
    rw [unary.eq_def]
    refine Balanced.nested ?_
    split
    · exact balanced_pure _
    · split
      · exact balanced_pure _
      · exact balanced_throw _
    · exact (ihunary _ _ (by simp)).bind fun x => balanced_pure _
    · refine (balanced_interval _).bind fun I => ?_
      exact (ihunary _ _ (Nat.lt_succ_of_lt I.length_lt)).bind fun x => balanced_pure _
    · exact (ihformula _ (by simp)).bind fun inner =>
        (balanced_expect _ _ _).bind fun closing => balanced_pure _
    · exact balanced_throw _
  · intro what s hunary
    rwa [expression]
  · intro n what s hfirst ihchain
    rw [expression]
    exact hfirst.bind fun first =>
      (ihchain _ _ first.length_lt).bind fun whole => balanced_pure _
  · intro n left s ihoperand ihchain
    rw [chain]
    refine (balanced_infixOfLevel _ _).bind fun op => ?_
    cases op with
    | none => exact balanced_pure _
    | some op =>
        refine (ihoperand _ op.length_lt).bind fun right => ?_
        have hright := Nat.lt_trans right.length_lt op.length_lt
        exact (ihchain _ _ hright).bind fun whole => balanced_pure _

theorem balanced_unary (what : Expectation) (s : List Token) : Balanced (unary what s) :=
  (balanced_readings s).1 what

theorem balanced_expression (n : Nat) (what : Expectation) (s : List Token) :
    Balanced (expression n what s) :=
  (balanced_readings s).2.1 n what

theorem balanced_chain (n : Nat) (left : Formula) (s : List Token) :
    Balanced (chain n left s) :=
  (balanced_readings s).2.2 n left

theorem balanced_formula (s : List Token) : Balanced (formula s) := by
  unfold formula
  refine (balanced_expression _ _ _).bind fun f => ?_
  split
  · exact balanced_pure _
  · exact balanced_throw _

end MissionTime.Syntax
