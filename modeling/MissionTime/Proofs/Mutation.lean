import MissionTime.Proofs.Operands

/-!
# Mutations

A mutation changes one field of a node: the value of a constant, the number of a variable, the
bounds of a temporal operator, or an operand. It answers with what was there before. It is
refused where the node has no such field, and where the bounds would be out of order. A mutation
can be made at any node of a formula, which is named by the path that leads to it.

## Main definitions

* `Mutation`, `Reply`: the mutations, and their answers.
* `Mutation.run`, `Mutation.runAt`: a mutation of a node, and of a node of a formula.
* `Mutation.Yields`: the rules for a mutation of a node, one for each way it can end.

## Main results

* `Mutation.yields_run`: the rules say all that a mutation of a node can do.
* `Mutation.runAt_eq_put`, `Mutation.exists_runAt`: a mutation at a path is the mutation of the node
  there.
-/

namespace MissionTime

/-! ### Bounds of intervals -/

/-- The bounds of an interval. -/
def Interval.pair (I : Interval) : UInt64 × UInt64 :=
  (I.lower, I.upper)

/-- The bounds that an edit asks for: a bound that is not named is kept. -/
def Interval.proposed (I : Interval) : BoundsEdit → UInt64 × UInt64
  | .lower bound => (bound, I.upper)
  | .upper bound => (I.lower, bound)
  | .both lower upper => (lower, upper)

theorem Interval.attempt_eq (I : Interval) (edit : BoundsEdit) :
    I.attempt edit = Interval.of (I.proposed edit).1 (I.proposed edit).2 := by
  cases edit <;> rfl

/-- An edit that asks for bounds in order is made. -/
theorem Interval.edit_of_le {I : Interval} {edit : BoundsEdit}
    (h : (I.proposed edit).1 ≤ (I.proposed edit).2) : I.edit edit = ⟨⟨_, _, h⟩, .ok I⟩ := by
  rw [Interval.edit, attempt_eq, Interval.of, dif_pos h]

/-- An edit that asks for bounds out of order leaves the interval as it was. -/
theorem Interval.edit_of_lt {I : Interval} {edit : BoundsEdit}
    (h : (I.proposed edit).2 < (I.proposed edit).1) :
    I.edit edit = ⟨I, .error ⟨(I.proposed edit).1, (I.proposed edit).2⟩⟩ := by
  rw [Interval.edit, attempt_eq, Interval.of, dif_neg (UInt64.not_le.mpr h)]

/-- No interval has bounds that are out of order. -/
theorem Interval.not_lt_of_pair_eq {J : Interval} {p : UInt64 × UInt64} (h : J.pair = p) :
    ¬p.2 < p.1 := by
  rw [← h]
  exact UInt64.not_lt.mpr J.lower_le_upper

namespace Formula

/-- The formula with another interval, if it carries one. -/
def withBounds (J : Interval) : Formula → Formula
  | unary op _ x => unary op J x
  | binary op l _ r => binary op l J r
  | f => f

/-- The edit of a node is the edit of its interval. -/
theorem editBounds_eq_of_bounds? {f : Formula} {I : Interval} (h : f.bounds? = some I)
    (edit : Interval.BoundsEdit) :
    f.editBounds edit = ⟨f.withBounds (I.edit edit).state, some (I.edit edit).answer⟩ := by
  cases f <;> cases h <;> rfl

theorem editBounds_eq_of_bounds?_eq_none {f : Formula} (h : f.bounds? = none)
    (edit : Interval.BoundsEdit) : f.editBounds edit = ⟨f, none⟩ := by
  cases f <;> cases h <;> rfl

theorem withBounds_eq_self {f : Formula} {I : Interval} (h : f.bounds? = some I) :
    f.withBounds I = f := by
  cases f <;> cases h <;> rfl

theorem kind_withBounds (J : Interval) (f : Formula) : (f.withBounds J).kind = f.kind := by
  cases f <;> rfl

theorem bounds?_withBounds {f : Formula} {I : Interval} (h : f.bounds? = some I) (J : Interval) :
    (f.withBounds J).bounds? = some J := by
  cases f <;> cases h <;> rfl

end Formula

/-! ### Mutations and their answers -/

/-- A change of one field of a node. What is put in the place of an operand is given as an
`α`. -/
inductive Mutation (α : Type) where
  | value (value : Bool)
  | id (id : UInt32)
  | bounds (edit : Interval.BoundsEdit)
  | operand (slot : Slot) (offer : α)

/-- What a mutation answers. -/
inductive Reply where
  /-- The value that was there before. -/
  | value (previous : Bool)
  | id (previous : UInt32)
  | bounds (previous : Interval)
  | operand (previous : Formula)
  /-- Refused: the node has no such field. -/
  | noField
  /-- Refused: the bounds would be out of order. -/
  | outOfOrder (error : BoundsError)
  /-- Refused: there is no operand in the slot, and the offer is handed back. -/
  | handedBack (offer : Formula)

/-- The answers of refused mutations. -/
def Reply.Refused : Reply → Prop
  | noField | outOfOrder _ | handedBack _ => True
  | _ => False

/-- What an edit of the bounds of a node answers. -/
def Reply.ofBounds : Option (Except BoundsError Interval) → Reply
  | some (.ok previous) => .bounds previous
  | some (.error e) => .outOfOrder e
  | none => .noField

/-- The formula that is handed out. -/
def Reply.returned? : Reply → Option Formula
  | operand f | handedBack f => some f
  | _ => none

/-- A formula after a mutation, with the answer. -/
structure Mutated where
  formula : Formula
  reply : Reply

namespace Mutation

open Formula

/-- A mutation of a node. -/
def run (m : Mutation Formula) (node : Formula) : Mutated :=
  match m with
  | value b =>
    let after := node.setValue b
    ⟨after.state, after.answer.elim .noField .value⟩
  | id n =>
    let after := node.setId n
    ⟨after.state, after.answer.elim .noField .id⟩
  | bounds edit =>
    let after := node.editBounds edit
    ⟨after.state, .ofBounds after.answer⟩
  | operand slot g =>
    let after := node.replace slot g
    ⟨after.formula, if after.accepted then .operand after.returned else .handedBack after.returned⟩

/-- A mutation of the node at the end of a path. -/
def runAt (m : Mutation Formula) : List Slot → Formula → Option Mutated
  | [], f => some (m.run f)
  | slot :: path, f =>
    (f.child? slot).bind fun x => (m.runAt path x).map fun after =>
      ⟨(f.replace slot after.formula).formula, after.reply⟩

/-! ### The rules for a node -/

/-- The rules for a mutation of a node, one for each way it can end. -/
inductive Yields : Mutation Formula → Formula → Mutated → Prop
  | value (b previous : Bool) : Yields (value b) (const previous) ⟨const b, .value previous⟩
  | noValue (b : Bool) {node : Formula} (h : node.value? = none) :
      Yields (value b) node ⟨node, .noField⟩
  | id (n previous : UInt32) : Yields (id n) (var previous) ⟨var n, .id previous⟩
  | noId (n : UInt32) {node : Formula} (h : node.id? = none) : Yields (id n) node ⟨node, .noField⟩
  | bounds (edit : Interval.BoundsEdit) {node : Formula} {I J : Interval}
      (h : node.bounds? = some I) (hJ : J.pair = I.proposed edit) :
      Yields (bounds edit) node ⟨node.withBounds J, .bounds I⟩
  | outOfOrder (edit : Interval.BoundsEdit) {node : Formula} {I : Interval}
      (h : node.bounds? = some I) (horder : (I.proposed edit).2 < (I.proposed edit).1) :
      Yields (bounds edit) node
        ⟨node, .outOfOrder ⟨(I.proposed edit).1, (I.proposed edit).2⟩⟩
  | noBounds (edit : Interval.BoundsEdit) {node : Formula} (h : node.bounds? = none) :
      Yields (bounds edit) node ⟨node, .noField⟩
  | operand {slot : Slot} (g : Formula) {node x : Formula} (h : node.child? slot = some x) :
      Yields (operand slot g) node ⟨(node.replace slot g).formula, .operand x⟩
  | noOperand {slot : Slot} (g : Formula) {node : Formula} (h : node.child? slot = none) :
      Yields (operand slot g) node ⟨node, .handedBack g⟩

/-- **The rules say all that a mutation of a node can do.** -/
theorem yields_run (m : Mutation Formula) (node : Formula) : Yields m node (m.run node) := by
  cases m with
  | value b =>
      cases node with
      | const previous => exact .value b previous
      | _ => exact .noValue b rfl
  | id n =>
      cases node with
      | var previous => exact .id n previous
      | _ => exact .noId n rfl
  | bounds edit =>
      cases h : node.bounds? with
      | none =>
          rw [run, editBounds_eq_of_bounds?_eq_none h]
          exact .noBounds edit h
      | some I =>
          rw [run, editBounds_eq_of_bounds? h]
          by_cases horder : (I.proposed edit).1 ≤ (I.proposed edit).2
          · rw [Interval.edit_of_le horder]
            exact .bounds edit h (J := ⟨_, _, horder⟩) rfl
          · have hlt := UInt64.not_le.mp horder
            rw [Interval.edit_of_lt hlt, withBounds_eq_self h]
            exact .outOfOrder edit h hlt
  | operand slot g =>
      cases h : node.child? slot with
      | none =>
          simp only [run, replace_of_child?_eq_none h]
          exact .noOperand g h
      | some x =>
          rw [run, replace_of_child?_eq_some h]
          exact .operand g h

/-- The node has the field that a mutation would change. -/
def HasField : Mutation Formula → Formula → Prop
  | value _, node => node.value?.isSome
  | id _, node => node.id?.isSome
  | bounds _, node => node.bounds?.isSome
  | operand slot _, node => (node.child? slot).isSome

/-- A mutation asks for bounds that are out of order. -/
def Inverts : Mutation Formula → Formula → Prop
  | bounds edit, node => ∃ I, node.bounds? = some I ∧ (I.proposed edit).2 < (I.proposed edit).1
  | _, _ => False

/-- The field of a node has become what a mutation asks for. -/
def Made : Mutation Formula → Formula → Formula → Prop
  | value b, _, node' => node'.value? = some b
  | id n, _, node' => node'.id? = some n
  | bounds edit, node, node' => node'.bounds?.map Interval.pair = node.bounds?.map (·.proposed edit)
  | operand slot g, _, node' => node'.child? slot = some g

namespace Yields

variable {m : Mutation Formula} {node : Formula} {after : Mutated}

/-- A node keeps its kind. -/
theorem kind_eq (h : Yields m node after) : after.formula.kind = node.kind := by
  cases h with
  | bounds => exact kind_withBounds _ _
  | operand => exact kind_replace _ _ _
  | _ => rfl

/-- A refused mutation leaves the node as it was. -/
theorem formula_eq_of_refused (h : Yields m node after) (hrefused : after.reply.Refused) :
    after.formula = node := by
  cases h with
  | value | id | bounds | operand => exact hrefused.elim
  | _ => rfl

theorem refused_iff (h : Yields m node after) :
    after.reply.Refused ↔ ¬HasField m node ∨ Inverts m node := by
  cases h with
  | value | id => simp [Reply.Refused, HasField, Inverts, value?, id?]
  | noValue b h | noId n h | noBounds edit h | noOperand g h =>
      simp [Reply.Refused, HasField, h]
  | operand g h => simp [Reply.Refused, HasField, Inverts, h]
  | bounds edit h hJ =>
      have hordered := Interval.not_lt_of_pair_eq hJ
      simpa [Reply.Refused, HasField, Inverts, h] using hordered
  | outOfOrder edit h horder => simp [Reply.Refused, HasField, Inverts, h, horder]

/-- The error of refused bounds holds the pair that was attempted. -/
theorem outOfOrder_iff (h : Yields m node after) (e : BoundsError) :
    after.reply = .outOfOrder e ↔ ∃ edit I, m = .bounds edit ∧ node.bounds? = some I ∧
      I.proposed edit = (e.lower, e.upper) ∧ e.upper < e.lower := by
  constructor
  · intro hreply
    cases h with
    | outOfOrder edit hI horder =>
        cases hreply
        exact ⟨edit, _, rfl, hI, rfl, horder⟩
    | _ => cases hreply
  · rintro ⟨edit, I, rfl, hI, hpair, horder⟩
    cases h with
    | bounds _ h hJ =>
        cases h.symm.trans hI
        exact absurd horder (Interval.not_lt_of_pair_eq (hJ.trans hpair))
    | outOfOrder _ h =>
        cases h.symm.trans hI
        rw [hpair]
    | noBounds _ h => cases h.symm.trans hI

/-- An offer is handed back if there is no operand in the slot. -/
theorem handedBack_iff (h : Yields m node after) (g : Formula) :
    after.reply = .handedBack g ↔ ∃ slot, m = .operand slot g ∧ node.child? slot = none := by
  constructor
  · intro hreply
    cases h with
    | noOperand g h =>
        cases hreply
        exact ⟨_, rfl, h⟩
    | _ => cases hreply
  · rintro ⟨slot, rfl, hnone⟩
    cases h with
    | operand _ h => cases h.symm.trans hnone
    | noOperand => rfl

/-- A mutation that is not refused is made. -/
theorem made (h : Yields m node after) (hdone : ¬after.reply.Refused) :
    Made m node after.formula := by
  cases h with
  | value | id => rfl
  | bounds edit h hJ => rw [Made, bounds?_withBounds h, h, Option.map_some, Option.map_some, hJ]
  | operand g h => exact child?_replace h g
  | _ => exact absurd trivial hdone

end Yields

/-! ### Mutations at a path -/

/-- **A mutation at a path** puts the mutated node in the place of the node there. -/
theorem runAt_eq_put (m : Mutation Formula) {path : List Slot} {f node : Formula}
    (h : f.at? path = some node) :
    m.runAt path f = some ⟨f.put path (m.run node).formula, (m.run node).reply⟩ := by
  induction path generalizing f with
  | nil =>
      cases h
      rfl
  | cons slot path ih =>
      obtain ⟨x, hx, hnode⟩ := Option.bind_eq_some_iff.mp h
      rw [runAt, hx, Option.bind_some, ih hnode, Option.map_some, put_cons hx]

/-- **A mutation at a path is the mutation of the node there.** The answer is that of the node,
and if the node stays as it was, so does the whole formula. -/
theorem exists_runAt (m : Mutation Formula) {path : List Slot} {f node : Formula}
    (h : f.at? path = some node) :
    ∃ whole, m.runAt path f = some ⟨whole, (m.run node).reply⟩ ∧
      whole.at? path = some (m.run node).formula ∧ ((m.run node).formula = node → whole = f) := by
  refine ⟨_, m.runAt_eq_put h, at?_put h _, fun hstays => ?_⟩
  rw [hstays, put_at? h]

/-- What is promised of a mutation of the node at the end of a path in `f`. -/
structure Kept (m : Mutation Formula) (path : List Slot) (f node : Formula) (after : Mutated) :
    Prop where
  /-- The node is still there, of the same kind, and has what was asked for unless that was
  refused. -/
  exists_node : ∃ node', after.formula.at? path = some node' ∧ node'.kind = node.kind ∧
    (¬after.reply.Refused → m.Made node node')
  /-- A mutation is refused if the field is missing or the bounds would be out of order. -/
  refused_iff : after.reply.Refused ↔ ¬m.HasField node ∨ m.Inverts node
  /-- A refused mutation leaves the whole formula as it was. -/
  unchanged : after.reply.Refused → after.formula = f
  /-- The error of refused bounds holds the pair that was attempted. -/
  outOfOrder_iff : ∀ e, after.reply = .outOfOrder e ↔ ∃ edit I, m = .bounds edit ∧
    node.bounds? = some I ∧ I.proposed edit = (e.lower, e.upper) ∧ e.upper < e.lower
  /-- A refused offer is handed back. -/
  handedBack_iff : ∀ g, after.reply = .handedBack g ↔ ∃ slot, m = .operand slot g ∧
    node.child? slot = none

theorem exists_kept (m : Mutation Formula) {path : List Slot} {f node : Formula}
    (h : f.at? path = some node) :
    ∃ after, m.runAt path f = some after ∧ m.Kept path f node after := by
  obtain ⟨whole, hrun, hwhole, hsame⟩ := m.exists_runAt h
  have hyields := m.yields_run node
  exact ⟨_, hrun, {
    exists_node := ⟨_, hwhole, hyields.kind_eq, hyields.made⟩
    refused_iff := hyields.refused_iff
    unchanged := fun hrefused => hsame (hyields.formula_eq_of_refused hrefused)
    outOfOrder_iff := hyields.outOfOrder_iff
    handedBack_iff := hyields.handedBack_iff }⟩

end Mutation

end MissionTime
