import MissionTime.Proofs.ReadingMachine

/-!
# The Length of Runs

A run of the readings comes to its end after a number of steps that is linear in the number of
tokens. There is work for every token that is left, for what is about to be done and for everything
that waits, and every step takes some of it: the operand of an infix operator and the expression in
parentheses are only read when a token has been taken, and what a token is worth is more than it
takes to go down through all levels of the grammar.

That a token is worth so much depends on the number of levels, so the bound is one on runs that
keep to the levels of the grammar. A run that begins there does.

## Main definitions

* `Machine.InGrammar`: the moments of runs that keep to the levels of the grammar.
* `Machine.work`: a bound on the steps that are left.
* `Machine.run`: as many steps as are given, or fewer if the run ends before.

## Main results

* `Machine.Lowers.step`: a step keeps to the grammar and takes some of the work.
* `Machine.run_eq_of_reaches`: with as many steps as there is work a run comes to its end.
* `Machine.run_call`: the number of steps for a call.
-/

namespace MissionTime.Syntax

/-! ### Work -/

/-- The tokens that a call begins with. -/
def Call.tokens : Call → List Token
  | unary _ s | expression _ _ s | chain _ _ s => s

/-- Calls that keep to the levels of the grammar. -/
def Call.InGrammar : Call → Prop
  | unary _ _ => True
  | expression level _ _ => level ≤ loosestLevel
  | chain n _ _ => n < loosestLevel

/-- What waits within the levels of the grammar. -/
def Frame.InGrammar : Frame → Prop
  | first n | right n _ _ => n < loosestLevel
  | _ => True

def Control.InGrammar : Control → Prop
  | call c => c.InGrammar
  | _ => True

/-- The work for a call besides that for its tokens. Each level of an expression is worth the steps
to its first operand and back. -/
def Call.work : Call → Nat
  | unary _ _ => 3
  | expression level _ _ => 4 + 3 * level
  | chain _ _ _ => 1

/-- The work for what waits. Behind the operands of infix operators the chain goes on. -/
def Frame.work : Frame → Nat
  | first _ | right _ _ _ => 2
  | _ => 1

/-- The work for what is about to be done. After a failure no tokens are read any more. -/
def Control.work : Control → Nat
  | call c => 24 * c.tokens.length + c.work
  | body _ s => 24 * s.length + 1
  | back (.ok p) => 24 * p.2.length
  | back (.error _) => 0

/-- The work for all that waits. -/
def stackWork : List Frame → Nat
  | [] => 0
  | frame :: stack => frame.work + stackWork stack

theorem Frame.work_pos (frame : Frame) : 0 < frame.work := by
  cases frame <;> exact Nat.zero_lt_succ _

namespace Machine

/-- A moment of a run that keeps to the levels of the grammar. -/
structure InGrammar (m : Machine) : Prop where
  control : m.control.InGrammar
  stack : ∀ frame ∈ m.stack, frame.InGrammar

/-- A bound on the steps that are left. -/
def work (m : Machine) : Nat :=
  m.control.work + stackWork m.stack

/-- The first moment has more work than the second one, which keeps to the grammar. -/
structure Lowers (m m' : Machine) : Prop where
  inGrammar : m'.InGrammar
  work_lt : m'.work < m.work

/-! ### A step takes some of the work -/

section

variable {control control' : Control} {frame : Frame} {stack : List Frame} {gauge gauge' : Nat}

/-- Something is done with less work, while nothing comes to wait. -/
theorem Lowers.keep (h : InGrammar ⟨control, stack, gauge⟩) (hcontrol : control'.InGrammar)
    (hwork : control'.work < control.work) :
    Lowers ⟨control, stack, gauge⟩ ⟨control', stack, gauge'⟩ :=
  ⟨⟨hcontrol, h.stack⟩, Nat.add_lt_add_right hwork _⟩

/-- Something comes to wait, and what is done has less work even if that is added. -/
theorem Lowers.push (h : InGrammar ⟨control, stack, gauge⟩) (hcontrol : control'.InGrammar)
    (hframe : frame.InGrammar) (hwork : control'.work + frame.work < control.work) :
    Lowers ⟨control, stack, gauge⟩ ⟨control', frame :: stack, gauge'⟩ := by
  refine ⟨⟨hcontrol, List.forall_mem_cons.mpr ⟨hframe, h.stack⟩⟩, ?_⟩
  simp only [work, stackWork]
  omega

/-- Something has waited, and what is done has less work than what came back and it had. -/
theorem Lowers.pop (h : InGrammar ⟨control, frame :: stack, gauge⟩)
    (hcontrol : control'.InGrammar) (hwork : control'.work < control.work + frame.work) :
    Lowers ⟨control, frame :: stack, gauge⟩ ⟨control', stack, gauge'⟩ := by
  refine ⟨⟨hcontrol, (List.forall_mem_cons.mp h.stack).2⟩, ?_⟩
  simp only [work, stackWork]
  omega

theorem Lowers.makeCall {c : Call} (h : InGrammar ⟨.call c, stack, gauge⟩) :
    Lowers ⟨.call c, stack, gauge⟩ (makeCall c stack gauge) := by
  have hlevel : c.InGrammar := h.control
  cases c with
  | unary what s =>
      simp only [Machine.makeCall]
      split
      · refine .push h trivial trivial ?_
        simp only [Control.work, Call.work, Call.tokens, Frame.work]
        omega
      · refine .keep h trivial ?_
        simp only [Control.work, Call.work]
        omega
  | expression level what s =>
      cases level with
      | zero =>
          refine .keep h trivial ?_
          simp only [Control.work, Call.work, Call.tokens]
          omega
      | succ n =>
          have hn : n < loosestLevel := hlevel
          refine .push h (Nat.le_of_lt hn) hn ?_
          simp only [Control.work, Call.work, Call.tokens, Frame.work]
          omega
  | chain n left s =>
      have hn : n < loosestLevel := hlevel
      simp only [Machine.makeCall]
      split
      · rename_i op rest hop
        have hlt : rest.length < s.length := length_lt_of_infixResult hop
        refine .push h (Nat.le_of_lt hn) hn ?_
        simp only [Control.work, Call.work, Call.tokens, Frame.work, loosestLevel] at hn ⊢
        omega
      · refine .keep h trivial ?_
        simp only [Control.work, Call.work, Call.tokens]
        omega
      · refine .keep h trivial ?_
        simp only [Control.work, Call.work]
        omega

theorem Lowers.readBody {what : Expectation} {s : List Token}
    (h : InGrammar ⟨.body what s, stack, gauge⟩) :
    Lowers ⟨.body what s, stack, gauge⟩ (readBody what s stack gauge) := by
  -- A failure has no work, and the body has some.
  have hfail (e : Failure) (gauge' : Nat) :
      Lowers ⟨.body what s, stack, gauge⟩ ⟨.back (.error e), stack, gauge'⟩ :=
    .keep h trivial (Nat.succ_pos _)
  unfold Machine.readBody
  split
  · refine .keep h trivial ?_
    simp only [Control.work, List.length_cons]
    omega
  · split
    · refine .keep h trivial ?_
      simp only [Control.work, List.length_cons]
      omega
    · exact hfail _ _
  · refine .push h trivial trivial ?_
    simp only [Control.work, Call.work, Call.tokens, Frame.work, List.length_cons]
    omega
  · split
    · rename_i I left hI
      have hlt := length_lt_of_result hI
      refine .push h trivial trivial ?_
      simp only [Control.work, Call.work, Call.tokens, Frame.work, List.length_cons]
      omega
    · exact hfail _ _
  · refine .push h (Nat.le_refl _) trivial ?_
    simp only [Control.work, Call.work, Call.tokens, Frame.work, List.length_cons, loosestLevel]
    omega
  · exact hfail _ _

theorem Lowers.resume {x : Formula} {rest : List Token}
    (h : InGrammar ⟨.back (.ok (x, rest)), frame :: stack, gauge⟩) :
    Lowers ⟨.back (.ok (x, rest)), frame :: stack, gauge⟩ (resume frame x rest stack gauge) := by
  have hframe : frame.InGrammar := h.stack _ List.mem_cons_self
  cases frame with
  | parenthesis =>
      refine .pop h trivial ?_
      cases hclose : result (expect .closeParen .closeParen rest) gauge with
      | error e => exact Nat.succ_pos _
      | ok closing =>
          have hlt := length_lt_of_result hclose
          simp only [Except.map, Control.work, Frame.work]
          omega
  | first n =>
      refine .pop h hframe ?_
      simp only [Control.work, Call.work, Call.tokens, Frame.work]
      omega
  | right n left op =>
      refine .pop h hframe ?_
      simp only [Control.work, Call.work, Call.tokens, Frame.work]
      omega
  | _ => exact .pop h trivial (Nat.lt_succ_self _)

theorem Lowers.abort {e : Failure} (h : InGrammar ⟨.back (.error e), frame :: stack, gauge⟩) :
    Lowers ⟨.back (.error e), frame :: stack, gauge⟩ (abort frame e stack gauge) := by
  have hpos : 0 < 0 + frame.work := (Nat.zero_add _).symm ▸ frame.work_pos
  cases frame <;> exact .pop h trivial hpos

end

/-- **One step keeps to the grammar and takes some of the work.** -/
theorem Lowers.step {m m' : Machine} (h : m.InGrammar) (hstep : m.step? = some m') :
    Lowers m m' := by
  obtain ⟨control, stack, gauge⟩ := m
  cases control with
  | call c => exact Option.some.inj hstep ▸ .makeCall h
  | body what s => exact Option.some.inj hstep ▸ .readBody h
  | back answer =>
      cases stack with
      | nil => cases answer <;> cases hstep
      | cons frame stack =>
          cases answer with
          | ok p => exact Option.some.inj hstep ▸ .resume h
          | error e => exact Option.some.inj hstep ▸ .abort h

/-! ### Runs -/

/-- As many steps as are given, or fewer if the run ends before. -/
def run : Nat → Machine → Machine
  | 0, m => m
  | k + 1, m =>
    match m.step? with
    | none => m
    | some m' => run k m'

/-- A run that has ended stays where it is. -/
theorem run_of_ended {m : Machine} (h : m.step? = none) (k : Nat) : run k m = m := by
  cases k with
  | zero => rfl
  | succ k => simp only [run, h]

/-- **With as many steps as there is work a run comes to its end**, by induction on its steps. -/
theorem run_eq_of_reaches {m m' : Machine} {k : Nat} (h : m.InGrammar) (hreaches : Reaches m m')
    (hended : m'.step? = none) (hk : m.work ≤ k) : run k m = m' := by
  induction hreaches using Relation.ReflTransGen.head_induction_on generalizing k with
  | refl => exact run_of_ended hended k
  | head hstep _ ih =>
      have hlowers := Lowers.step h hstep
      have hlt := hlowers.work_lt
      obtain ⟨k, rfl⟩ : ∃ j, k = j + 1 := Nat.exists_eq_succ_of_ne_zero (by omega)
      simp only [run, hstep]
      exact ih hlowers.inGrammar (by omega)

/-- **The number of steps for a call**: 24 for each of its tokens, and 24 more. Then the run has
ended with the answer. -/
theorem run_call {c : Call} (hc : c.InGrammar) {k : Nat} (hk : 24 * (c.tokens.length + 1) ≤ k)
    (gauge : Nat) : run k ⟨.call c, [], gauge⟩ = ⟨.back (c.answer gauge), [], gauge⟩ := by
  refine run_eq_of_reaches ⟨hc, List.forall_mem_nil _⟩ (reaches_back c [] gauge) ?_ ?_
  · cases c.answer gauge <;> rfl
  · have hwork : c.work < 24 := by
      cases c with
      | unary what s => simp [Call.work]
      | expression level what s =>
          have hlevel : level ≤ 6 := hc
          simp only [Call.work]
          omega
      | chain n left s => simp [Call.work]
    simp only [work, Control.work, stackWork]
    omega

end Machine

end MissionTime.Syntax
