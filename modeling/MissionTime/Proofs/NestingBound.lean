import MissionTime.Proofs.Acceptance
import MissionTime.Proofs.ReadingMachine

/-!
# The Bound on Nesting

At every moment of a run the gauge stands as many levels above its start as there are unary
expressions that have been entered and not been left, and it never passes the limit. At the end
it is back at its start, whether the reading has succeeded or has failed. So texts that are read
one after the other under one gauge do not know of each other.

## Main definitions

* `Machine.active`: the unary expressions that are being read at a moment of a run.
* `Machine.Gauged`: the gauge counts the active unary expressions and respects the limit.

## Main results

* `Machine.Gauged.step`, `Machine.Gauged.reaches`: a step, and so a run, keeps the gauge right.
* `run_parseUnder`, `run_mapM_parseUnder`: a text, and so a sequence of texts, leaves the gauge.
* `nesting_balanced_and_bounded`: balance, the bound, and the independence of the texts.
-/

namespace MissionTime

open Syntax

namespace Syntax

/-- The frames of unary expressions that have been entered. -/
def Frame.isLevel : Frame → Bool
  | .level => true
  | _ => false

namespace Machine

/-- The unary expressions that have been entered and not been left. -/
def active (m : Machine) : Nat :=
  m.stack.countP Frame.isLevel

theorem active_level (control control' : Control) (stack : List Frame) (gauge gauge' : Nat) :
    active ⟨control, .level :: stack, gauge⟩ = active ⟨control', stack, gauge'⟩ + 1 :=
  List.countP_cons_of_pos rfl

/-- The gauge is above the given start by the number of active unary expressions, and it is not
above the limit. -/
structure Gauged (start : Nat) (m : Machine) : Prop where
  gauge_eq : m.gauge = start + m.active
  gauge_le : m.gauge ≤ nestingLimit

/-- Control may change, and frames other than levels may come and go. -/
theorem Gauged.of_eq {start : Nat} {m m' : Machine} (h : Gauged start m)
    (hgauge : m'.gauge = m.gauge) (hactive : m'.active = m.active) : Gauged start m' :=
  ⟨by rw [hgauge, hactive, h.gauge_eq], hgauge ▸ h.gauge_le⟩

/-- A level that is left is taken off the gauge. -/
theorem Gauged.leave {start gauge : Nat} {control control' : Control} {stack : List Frame}
    (h : Gauged start ⟨control, .level :: stack, gauge⟩) :
    Gauged start ⟨control', stack, gauge - 1⟩ := by
  have hgauge : gauge = start + active ⟨control, .level :: stack, gauge⟩ := h.gauge_eq
  rw [active_level control control' stack gauge (gauge - 1)] at hgauge
  exact ⟨Nat.sub_eq_of_eq_add hgauge, (Nat.sub_le gauge 1).trans h.gauge_le⟩

/-- A unary expression is entered below the limit only. -/
theorem Gauged.enter {start gauge : Nat} {control control' : Control} {stack : List Frame}
    (h : Gauged start ⟨control, stack, gauge⟩) (hlimit : gauge < nestingLimit) :
    Gauged start ⟨control', .level :: stack, gauge + 1⟩ := by
  have hgauge : gauge = start + active ⟨control, stack, gauge⟩ := h.gauge_eq
  refine ⟨?_, hlimit⟩
  rw [active_level control' control stack (gauge + 1) gauge]
  exact congrArg (· + 1) hgauge

theorem Gauged.makeCall {start gauge : Nat} {c : Call} {stack : List Frame}
    (h : Gauged start ⟨.call c, stack, gauge⟩) : Gauged start (makeCall c stack gauge) := by
  cases c with
  | unary what s =>
      simp only [Machine.makeCall]
      split
      · exact h.enter ‹_›
      · exact h.of_eq rfl rfl
  | expression level what s => cases level <;> exact h.of_eq rfl rfl
  | chain n left s =>
      simp only [Machine.makeCall]
      have hbalanced := (balanced_infixOfLevel (n + 1) s).gaugeAfter_eq gauge
      split <;> exact h.of_eq hbalanced rfl

theorem Gauged.readBody {start gauge : Nat} {what : Expectation} {s : List Token}
    {stack : List Frame} (h : Gauged start ⟨.body what s, stack, gauge⟩) :
    Gauged start (readBody what s stack gauge) := by
  unfold Machine.readBody
  split
  · exact h.of_eq rfl rfl
  · split <;> exact h.of_eq rfl rfl
  · exact h.of_eq rfl rfl
  · split <;> exact h.of_eq ((balanced_interval _).gaugeAfter_eq gauge) rfl
  · exact h.of_eq rfl rfl
  · exact h.of_eq rfl rfl

theorem Gauged.resume {start gauge : Nat} {frame : Frame} {x : Formula} {rest : List Token}
    {control : Control} {stack : List Frame} (h : Gauged start ⟨control, frame :: stack, gauge⟩) :
    Gauged start (resume frame x rest stack gauge) := by
  cases frame with
  | level => exact h.leave
  | parenthesis => exact h.of_eq ((balanced_expect _ _ _).gaugeAfter_eq gauge) rfl
  | _ => exact h.of_eq rfl rfl

theorem Gauged.abort {start gauge : Nat} {frame : Frame} {e : Failure} {control : Control}
    {stack : List Frame} (h : Gauged start ⟨control, frame :: stack, gauge⟩) :
    Gauged start (abort frame e stack gauge) := by
  cases frame with
  | level => exact h.leave
  | _ => exact h.of_eq rfl rfl

/-- **One step keeps the gauge right.** -/
theorem Gauged.step {start : Nat} {m m' : Machine} (h : Gauged start m)
    (hstep : m.step? = some m') : Gauged start m' := by
  obtain ⟨control, stack, gauge⟩ := m
  cases control with
  | call c => exact Option.some.inj hstep ▸ h.makeCall
  | body what s => exact Option.some.inj hstep ▸ h.readBody
  | back answer =>
      cases stack with
      | nil => cases answer <;> cases hstep
      | cons frame stack =>
          cases answer with
          | ok p => exact Option.some.inj hstep ▸ h.resume
          | error e => exact Option.some.inj hstep ▸ h.abort

/-- **A run keeps the gauge right**, by induction on its steps. -/
theorem Gauged.reaches {start : Nat} {m m' : Machine} (h : Gauged start m)
    (hreaches : Reaches m m') : Gauged start m' := by
  induction hreaches with
  | refl => exact h
  | tail _ hstep ih => exact ih.step hstep

/-- A run begins without active unary expressions. -/
theorem gauged_call (c : Call) {start : Nat} (h : start ≤ nestingLimit) :
    Gauged start ⟨.call c, [], start⟩ :=
  ⟨rfl, h⟩

end Machine

end Syntax

/-! ### Texts -/

theorem balanced_readText (text : List Char) : Balanced (readText text) := by
  unfold readText
  refine (balanced_formula _).bind fun f => ?_
  split
  · exact balanced_pure _
  · exact (balanced_throw _).bind fun _ => balanced_pure _

/-- A text leaves the gauge as it was. -/
theorem run_parseUnder (text : String) (gauge : Nat) :
    (parseUnder text).run gauge =
      ((outcome (readText text.toList) gauge).mapError (ParseError.ofFailure text.toList),
        gauge) :=
  Prod.ext rfl (balanced_readText text.toList gauge)

/-- Texts that are read one after the other are each read under the gauge that the first one
finds. -/
theorem run_mapM_parseUnder (texts : List String) (gauge : Nat) :
    (texts.mapM parseUnder).run gauge =
      (texts.map fun text => ((parseUnder text).run gauge).1, gauge) := by
  induction texts with
  | nil => rfl
  | cons text texts ih =>
      have hgauge : ((parseUnder text).run gauge).2 = gauge := by rw [run_parseUnder]
      have hrest : (texts.mapM parseUnder).run ((parseUnder text).run gauge).2 =
          (texts.map fun text => ((parseUnder text).run gauge).1, gauge) := by rw [hgauge, ih]
      rw [List.mapM_cons]
      exact congrArg (fun q => (((parseUnder text).run gauge).1 :: q.1, q.2)) hrest

theorem parseAll_eq_map (texts : List String) : parseAll texts = texts.map parse := by
  rw [parseAll, run_mapM_parseUnder]
  rfl

/-- **The gauge is balanced and bounded.** Under a gauge that is not above the limit, a unary
expression, an expression or a chain leaves the gauge as it was, whether it is read or not. Its
run ends with its answer, and at every moment until then the gauge stands above its start by the
number of active unary expressions and is at most 64. Intervals, infix operators, formulas and
texts leave the gauge too, so texts that are read one after the other are answered as each of
them is when it is read alone. -/
theorem nesting_balanced_and_bounded (start : Nat) (hstart : start ≤ 64) :
    (∀ c : Call, (c.run start).2 = start ∧
      (∀ stack, Machine.Reaches ⟨.call c, stack, start⟩
        ⟨.back (c.run start).1, stack, (c.run start).2⟩) ∧
      ∀ m, Machine.Reaches ⟨.call c, [], start⟩ m →
        m.gauge = start + m.active ∧ m.gauge ≤ 64) ∧
    (∀ level s, gaugeAfter (interval s) start = start ∧
      gaugeAfter (infixOfLevel level s) start = start ∧ gaugeAfter (formula s) start = start) ∧
    (∀ text, ((parseUnder text).run start).2 = start) ∧
    ∀ texts, parseAll texts = texts.map parse := by
  refine ⟨fun c => ?_, fun level s => ⟨?_, ?_, ?_⟩, fun text => ?_, parseAll_eq_map⟩
  · rw [c.run_eq]
    refine ⟨rfl, fun stack => Machine.reaches_back c stack start, fun m hm => ?_⟩
    have hgauged := (Machine.gauged_call c hstart).reaches hm
    exact ⟨hgauged.gauge_eq, hgauged.gauge_le⟩
  · exact (balanced_interval s).gaugeAfter_eq start
  · exact (balanced_infixOfLevel level s).gaugeAfter_eq start
  · exact (balanced_formula s).gaugeAfter_eq start
  · rw [run_parseUnder]

/-- One level below the limit a negation is entered and its operand is refused. At that moment
one unary expression is active and the gauge is at the limit, and in the end it is back. -/
theorem nesting_balanced_and_bounded_at_limit :
    63 ≤ 64 ∧ ((Call.unary .formula [.negation, .constant true]).run 63).2 = 63 ∧
      Machine.Reaches ⟨.call (.unary .formula [.negation, .constant true]), [], 63⟩
        ⟨.back (.error ⟨[.constant true], .tooDeep⟩), [.negation, .level], 64⟩ ∧
      Machine.active ⟨.back (.error ⟨[.constant true], .tooDeep⟩), [.negation, .level], 64⟩ =
        1 := by
  have hstart : 63 ≤ 64 := by decide
  have hentered : Machine.Reaches ⟨.call (.unary .formula [.negation, .constant true]), [], 63⟩
      ⟨.call (.unary .operand [.constant true]), [.negation, .level], 64⟩ :=
    (Machine.Reaches.single rfl).trans (.single rfl)
  have hrefused : Machine.Reaches ⟨.call (.unary .formula [.negation, .constant true]), [], 63⟩
      ⟨.back (.error ⟨[.constant true], .tooDeep⟩), [.negation, .level], 64⟩ :=
    hentered.trans (.single rfl)
  obtain ⟨hback, -, hrun⟩ := (nesting_balanced_and_bounded 63 hstart).1
    (.unary .formula [.negation, .constant true])
  exact ⟨hstart, hback, hrefused, (Nat.add_left_cancel (m := 1) (hrun _ hrefused).1).symm⟩

end MissionTime
