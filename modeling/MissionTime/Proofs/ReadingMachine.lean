import Mathlib.Logic.Relation
import MissionTime.Proofs.Equations

/-!
# The Readings as a Machine

The readings of unary expressions, of expressions and of chains call each other. Their outcome
says nothing about the moments in between. This module defines a machine that goes through these
moments one by one: it has an explicit stack with a frame for everything that waits for a call to
come back, and it holds the gauge as it is at the moment. A unary expression that has been entered
has a frame of its own, which is taken off the stack when its level is left.

The machine is the readings: from a call, under whatever stack, it comes to what the reading comes
to, with the same stack and the gauge that the reading leaves.

## Main definitions

* `Call`, `Call.run`: the calls of readings, with their outcome and the gauge they leave.
* `Frame`, `Machine`: what waits for a call, and the state of a run.
* `Machine.step?`, `Machine.Reaches`: one step of a run, and any number of steps.

## Main results

* `Call.run_eq`: a call leaves the gauge as it was.
* `Machine.reaches_back`: the machine comes to what the reading comes to.
-/

namespace MissionTime.Syntax

variable {α β : Type}

/-! ### Calls -/

/-- The gauge that a reading leaves. -/
def gaugeAfter (m : Reading α) (gauge : Nat) : Nat :=
  (m.run.run gauge).2

theorem Balanced.gaugeAfter_eq {m : Reading α} (h : Balanced m) (gauge : Nat) :
    gaugeAfter m gauge = gauge :=
  h gauge

/-- A call of one of the readings that call each other. -/
inductive Call where
  | unary (what : Expectation) (s : List Token)
  | expression (level : Nat) (what : Expectation) (s : List Token)
  | chain (n : Nat) (left : Formula) (s : List Token)

/-- What comes back from a call: a formula and the tokens left, or a failure. -/
abbrev Answer := Except Failure (Formula × List Token)

/-- What comes back from a call that is made under a gauge. -/
def Call.answer : Call → Nat → Answer
  | unary what s, gauge => result (Syntax.unary what s) gauge
  | expression level what s, gauge => result (Syntax.expression level what s) gauge
  | chain n left s, gauge => result (Syntax.chain n left s) gauge

/-- A call that is made under a gauge: what comes back, and the gauge it leaves. -/
def Call.run (c : Call) (gauge : Nat) : Answer × Nat :=
  (c.answer gauge,
    match c with
    | unary what s => gaugeAfter (Syntax.unary what s) gauge
    | expression level what s => gaugeAfter (Syntax.expression level what s) gauge
    | chain n left s => gaugeAfter (Syntax.chain n left s) gauge)

/-- A call leaves the gauge as it was. -/
theorem Call.run_eq (c : Call) (gauge : Nat) : c.run gauge = (c.answer gauge, gauge) := by
  cases c with
  | unary what s => exact congrArg (Prod.mk _) (balanced_unary what s gauge)
  | expression level what s =>
      exact congrArg (Prod.mk _) (balanced_expression level what s gauge)
  | chain n left s => exact congrArg (Prod.mk _) (balanced_chain n left s gauge)

/-- An infix operator leaves fewer tokens than there were. -/
theorem length_lt_of_infixResult {level gauge : Nat} {s : List Token}
    {op : InfixOperator × List Token} (h : infixResult level s gauge = .ok (some op)) :
    op.2.length < s.length := by
  rw [infixResult] at h
  cases hm : outcome (infixOfLevel level s) gauge with
  | error e =>
      rw [hm] at h
      cases h
  | ok next =>
      rw [hm] at h
      cases next with
      | none => cases h
      | some r =>
          cases h
          exact r.length_lt

/-! ### Machines -/

/-- What waits on the stack for a call to come back. -/
inductive Frame where
  /-- A unary expression that has been entered. -/
  | level
  /-- A negation, for its operand. -/
  | negation
  /-- A unary temporal operator, for its operand. -/
  | temporal (op : UnaryTemporal) (bounds : Interval)
  /-- An opening parenthesis, for the formula behind it. -/
  | parenthesis
  /-- An expression one level above `n`, for its first operand. -/
  | first (n : Nat)
  /-- An infix operator with what stands on its left, for the operand on its right. -/
  | right (n : Nat) (left : Formula) (op : InfixOperator)

/-- What a machine is about to do. -/
inductive Control where
  | call (c : Call)
  /-- To read a unary expression that has been entered. -/
  | body (what : Expectation) (s : List Token)
  /-- To go back with an answer. -/
  | back (answer : Answer)

/-- A moment of a run. -/
structure Machine where
  control : Control
  stack : List Frame
  gauge : Nat

namespace Machine

/-- The call that is made next, or the answer that goes back, in a unary expression that has
been entered. -/
def readBody (what : Expectation) (s : List Token) (stack : List Frame) (gauge : Nat) : Machine :=
  match s with
  | .constant value :: rest => ⟨.back (.ok (.const value, rest)), stack, gauge⟩
  | .variable id :: rest =>
    if h : id.value < UInt32.size then
      ⟨.back (.ok (.var (.ofNatLT id.value h), rest)), stack, gauge⟩
    else ⟨.back (.error ⟨.variable id :: rest, .variableTooLarge id⟩), stack, gauge⟩
  | .negation :: rest => ⟨.call (.unary .operand rest), .negation :: stack, gauge⟩
  | .unary op :: rest =>
    match result (interval rest) gauge with
    | .ok (I, left) =>
      ⟨.call (.unary .operand left), .temporal op I :: stack, gaugeAfter (interval rest) gauge⟩
    | .error e => ⟨.back (.error e), stack, gaugeAfter (interval rest) gauge⟩
  | .openParen :: rest =>
    ⟨.call (.expression loosestLevel .formula rest), .parenthesis :: stack, gauge⟩
  | s => ⟨.back (.error ⟨s, .expected what⟩), stack, gauge⟩

/-- A call is made: a unary expression is entered unless the limit is reached, an expression
begins with its first operand, and a chain goes on if its operator comes next. -/
def makeCall (c : Call) (stack : List Frame) (gauge : Nat) : Machine :=
  match c with
  | .unary what s =>
    if gauge < nestingLimit then ⟨.body what s, .level :: stack, gauge + 1⟩
    else ⟨.back (.error ⟨s, .tooDeep⟩), stack, gauge⟩
  | .expression 0 what s => ⟨.call (.unary what s), stack, gauge⟩
  | .expression (n + 1) what s => ⟨.call (.expression n what s), .first n :: stack, gauge⟩
  | .chain n left s =>
    match infixResult (n + 1) s gauge with
    | .ok (some (op, rest)) =>
      ⟨.call (.expression n .operand rest), .right n left op :: stack,
        gaugeAfter (infixOfLevel (n + 1) s) gauge⟩
    | .ok none => ⟨.back (.ok (left, s)), stack, gaugeAfter (infixOfLevel (n + 1) s) gauge⟩
    | .error e => ⟨.back (.error e), stack, gaugeAfter (infixOfLevel (n + 1) s) gauge⟩

/-- What has waited goes on with the formula that was read and the tokens left. -/
def resume (frame : Frame) (x : Formula) (rest : List Token) (stack : List Frame) (gauge : Nat) :
    Machine :=
  match frame with
  | .level => ⟨.back (.ok (x, rest)), stack, gauge - 1⟩
  | .negation => ⟨.back (.ok (.neg x, rest)), stack, gauge⟩
  | .temporal op I => ⟨.back (.ok (.unary op I x, rest)), stack, gauge⟩
  | .parenthesis =>
    ⟨.back ((result (expect .closeParen .closeParen rest) gauge).map fun closing =>
      (x, closing.2)), stack, gaugeAfter (expect .closeParen .closeParen rest) gauge⟩
  | .first n => ⟨.call (.chain n x rest), stack, gauge⟩
  | .right n left op => ⟨.call (.chain n (op.apply left x) rest), stack, gauge⟩

/-- A failure goes through what has waited. A level that was entered is left all the same. -/
def abort (frame : Frame) (e : Failure) (stack : List Frame) (gauge : Nat) : Machine :=
  match frame with
  | .level => ⟨.back (.error e), stack, gauge - 1⟩
  | _ => ⟨.back (.error e), stack, gauge⟩

/-- One step of a run. There is none when an answer goes back and nothing waits for it. -/
def step? : Machine → Option Machine
  | ⟨.call c, stack, gauge⟩ => some (makeCall c stack gauge)
  | ⟨.body what s, stack, gauge⟩ => some (readBody what s stack gauge)
  | ⟨.back (.ok (x, rest)), frame :: stack, gauge⟩ => some (resume frame x rest stack gauge)
  | ⟨.back (.error e), frame :: stack, gauge⟩ => some (abort frame e stack gauge)
  | ⟨.back _, [], _⟩ => none

/-- A moment comes later in a run than another one, or is the same. -/
def Reaches : Machine → Machine → Prop :=
  Relation.ReflTransGen fun m m' => m.step? = some m'

/-! ### The machine does what the readings do -/

theorem Reaches.single {m m' : Machine} (h : m.step? = some m') : Reaches m m' :=
  Relation.ReflTransGen.single h

theorem Reaches.trans {m₁ m₂ m₃ : Machine} (h₁ : Reaches m₁ m₂) (h₂ : Reaches m₂ m₃) :
    Reaches m₁ m₃ :=
  Relation.ReflTransGen.trans h₁ h₂

/-- What comes back to a frame goes on as a composed reading does: a failure passes, and a
formula is worked on. -/
theorem reaches_bind (frame : Frame) (hframe : frame ≠ .level) {stack : List Frame}
    {gauge : Nat} {answer : Answer} (f : Formula × List Token → Answer)
    (hok : ∀ x rest, answer = .ok (x, rest) →
      Reaches (resume frame x rest stack gauge) ⟨.back (f (x, rest)), stack, gauge⟩) :
    Reaches ⟨.back answer, frame :: stack, gauge⟩ ⟨.back (answer.bind f), stack, gauge⟩ := by
  cases answer with
  | ok p => exact (Reaches.single rfl).trans (hok p.1 p.2 rfl)
  | error e =>
      refine Reaches.single ?_
      cases frame with
      | level => exact absurd rfl hframe
      | _ => rfl

/-- A level that was entered is left with whatever answer goes back. -/
theorem reaches_leave (answer : Answer) (stack : List Frame) (gauge : Nat) :
    Reaches ⟨.back answer, .level :: stack, gauge + 1⟩ ⟨.back answer, stack, gauge⟩ := by
  refine Reaches.single ?_
  cases answer <;> rfl

/-- The calls whose answer the machine comes to, under any stack and any gauge. -/
def Answered (c : Call) : Prop :=
  ∀ stack gauge, Reaches ⟨.call c, stack, gauge⟩ ⟨.back (c.answer gauge), stack, gauge⟩

theorem answered_unary {what : Expectation} {s : List Token}
    (ihunary : ∀ what' s', s'.length < s.length → Answered (.unary what' s'))
    (ihformula : ∀ s', s'.length < s.length → Answered (.expression loosestLevel .formula s')) :
    Answered (.unary what s) := by
  intro stack gauge
  rw [Call.answer, result_unary]
  by_cases hlimit : gauge < nestingLimit
  · have henter : step? ⟨.call (.unary what s), stack, gauge⟩ =
        some ⟨.body what s, .level :: stack, gauge + 1⟩ := by
      rw [step?, makeCall, if_pos hlimit]
    rw [if_pos hlimit]
    refine (Reaches.single henter).trans (Reaches.trans (Reaches.single rfl) ?_)
    refine Reaches.trans ?_ (reaches_leave _ stack gauge)
    -- The body of the expression, from its first token on.
    cases s with
    | nil => exact Relation.ReflTransGen.refl
    | cons t rest =>
        cases t with
        | «variable» id =>
            by_cases h : id.value < UInt32.size <;> simp only [readBody, h, ↓reduceDIte] <;>
              exact Relation.ReflTransGen.refl
        | negation =>
            refine Reaches.trans (ihunary _ _ (Nat.lt_succ_self _) _ _) ?_
            exact reaches_bind .negation Frame.noConfusion _
              fun x rest _ => Relation.ReflTransGen.refl
        | unary op =>
            simp only [readBody, (balanced_interval rest).gaugeAfter_eq]
            cases hI : result (interval rest) (gauge + 1) with
            | error e => exact Relation.ReflTransGen.refl
            | ok p =>
                have hlt := Nat.lt_succ_of_lt (length_lt_of_result hI)
                refine Reaches.trans (ihunary _ _ hlt _ _) ?_
                exact reaches_bind (.temporal op p.1) Frame.noConfusion _
                  fun x rest _ => Relation.ReflTransGen.refl
        | openParen =>
            refine Reaches.trans (ihformula _ (Nat.lt_succ_self _) _ _) ?_
            refine reaches_bind .parenthesis Frame.noConfusion _ fun x rest _ => ?_
            simp only [resume, (balanced_expect _ _ _).gaugeAfter_eq]
            cases result (expect .closeParen .closeParen rest) (gauge + 1) <;>
              exact Relation.ReflTransGen.refl
        | _ => exact Relation.ReflTransGen.refl
  · have hrefuse : step? ⟨.call (.unary what s), stack, gauge⟩ =
        some ⟨.back (.error ⟨s, .tooDeep⟩), stack, gauge⟩ := by
      rw [step?, makeCall, if_neg hlimit]
    rw [if_neg hlimit]
    exact Reaches.single hrefuse

theorem answered_expression_zero {what : Expectation} {s : List Token}
    (hunary : Answered (.unary what s)) : Answered (.expression 0 what s) := by
  intro stack gauge
  rw [Call.answer, result_expression_zero]
  exact (Reaches.single rfl).trans (hunary stack gauge)

theorem answered_expression_succ {n : Nat} {what : Expectation} {s : List Token}
    (hfirst : Answered (.expression n what s))
    (ihchain : ∀ left s', s'.length < s.length → Answered (.chain n left s')) :
    Answered (.expression (n + 1) what s) := by
  intro stack gauge
  rw [Call.answer, result_expression_succ]
  refine (Reaches.single rfl).trans (Reaches.trans (hfirst _ _) ?_)
  exact reaches_bind (.first n) Frame.noConfusion _
    fun x rest hx => ihchain x rest (length_lt_of_result hx) stack gauge

theorem answered_chain {n : Nat} {left : Formula} {s : List Token}
    (ihoperand : ∀ s', s'.length < s.length → Answered (.expression n .operand s'))
    (ihchain : ∀ left' s', s'.length < s.length → Answered (.chain n left' s')) :
    Answered (.chain n left s) := by
  intro stack gauge
  rw [Call.answer, result_chain]
  refine Reaches.trans (Reaches.single rfl) ?_
  simp only [makeCall, (balanced_infixOfLevel _ _).gaugeAfter_eq]
  cases hop : infixResult (n + 1) s gauge with
  | error e => exact Relation.ReflTransGen.refl
  | ok next =>
      cases next with
      | none => exact Relation.ReflTransGen.refl
      | some op =>
          have hlt : op.2.length < s.length := length_lt_of_infixResult hop
          refine Reaches.trans (ihoperand _ hlt _ _) ?_
          refine reaches_bind (.right n left op.1) Frame.noConfusion _ fun x rest hx => ?_
          exact ihchain _ rest (Nat.lt_trans (length_lt_of_result hx) hlt) stack gauge

/-- **The machine comes to what the reading comes to**, whatever waits for it and whatever the
gauge is, with the stack as it was. Induction along the recursion of the readings. -/
theorem reaches_back (c : Call) : Answered c := by
  have hall := reading_induction (U := fun what s => Answered (.unary what s))
    (E := fun n what s => Answered (.expression n what s))
    (C := fun n left s => Answered (.chain n left s))
    (fun _ _ => answered_unary)
    (fun _ _ => answered_expression_zero)
    (fun _ _ _ => answered_expression_succ) (fun _ _ _ => answered_chain)
  cases c with
  | unary what s => exact (hall s).1 what
  | expression level what s => exact (hall s).2.1 level what
  | chain n left s => exact (hall s).2.2 n left

end Machine

end MissionTime.Syntax
