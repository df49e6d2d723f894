import Mathlib.Data.List.Induction
import MissionTime.Proofs.Equations
import MissionTime.Proofs.Mutation

/-!
# Runs of Mutations

Formulas are built from their parts, read from texts, and mutated at any of their nodes, in any
order. A formula that is put in the place of an operand is one of those at hand, and the formula
that a mutation hands out is at hand from then on. This module follows the intervals through such
a run: the only ones that a step brings in are those whose bounds it asks for.

## Main definitions

* `Blueprint`, `Blueprint.build`: the parts of a formula, and their checked assembly.
* `Request`, `Request.apply`, `Request.run`: the calls, what one of them makes of the formulas at
  hand, and what a sequence of them makes of none.
* `Formula.intervals`, `Request.proposed`: the intervals in a formula, and the bounds that a call
  asks for.

## Main results

* `Blueprint.build_eq_ok_iff`: what can be built is what formulas consist of.
* `Request.mem_intervals_apply`, `Request.exists_request_of_mem_run`: where the intervals come
  from, in a step and in a run.
* `Request.run_keeps_bounds_and_kinds`: what holds of the formulas at hand and of the next mutation.
-/

namespace MissionTime

open Formula Syntax

/-! ### Intervals in formulas -/

namespace Formula

/-- The intervals of all temporal operators in a formula. -/
def intervals (f : Formula) : List Interval :=
  f.preorder.filterMap bounds?

variable {f g x : Formula} {I : Interval}

theorem mem_intervals_iff : I ∈ f.intervals ↔ some I ∈ f.preorder.map bounds? :=
  List.mem_filterMap.trans List.mem_map.symm

theorem intervals_subset_of_child? {slot : Slot} (h : f.child? slot = some x) :
    x.intervals ⊆ f.intervals :=
  List.filterMap_subset _ (preorder_subset_of_child? h)

/-- An exchange of operands brings in no intervals but those of the offer. -/
theorem mem_intervals_of_replace {slot : Slot} (h : I ∈ (f.replace slot g).formula.intervals) :
    I ∈ f.intervals ∨ I ∈ g.intervals := by
  have hmem : some I ∈ (f.preorder ++ g.preorder).map bounds? := by
    rw [← (preorder_replace_perm bounds? bounds?_replace slot f g).mem_iff, List.map_append]
    exact List.mem_append_left _ (mem_intervals_iff.mp h)
  rw [List.map_append, List.mem_append] at hmem
  exact hmem.imp mem_intervals_iff.mpr mem_intervals_iff.mpr

/-- Other bounds of a node bring in one interval. -/
theorem mem_intervals_of_withBounds {J : Interval} (h : I ∈ (f.withBounds J).intervals) :
    I ∈ f.intervals ∨ I = J := by
  cases f with
  | unary op K x => exact (List.mem_cons.mp h).symm.imp_left (List.mem_cons_of_mem K)
  | binary op l K r => exact (List.mem_cons.mp h).symm.imp_left (List.mem_cons_of_mem K)
  | _ => exact .inl h

end Formula

namespace Mutation

/-- An interval that a mutation of a node brings in. -/
def Brings : Mutation Formula → Formula → Interval → Prop
  | bounds edit, node, I => node.bounds?.map (·.proposed edit) = some I.pair
  | operand _ g, _, I => I ∈ g.intervals
  | _, _, _ => False

/-- After a mutation of a node, all intervals in it and in what is handed out were in it before
or are brought in by the mutation. -/
theorem Yields.mem_intervals {m : Mutation Formula} {node f : Formula} {after : Mutated}
    {I : Interval} (h : Yields m node after)
    (hf : f = after.formula ∨ after.reply.returned? = some f) (hI : I ∈ f.intervals) :
    I ∈ node.intervals ∨ m.Brings node I := by
  cases h with
  | value | id =>
      obtain rfl | ⟨⟨⟩⟩ := hf
      cases hI
  | bounds edit hbounds hJ =>
      obtain rfl | ⟨⟨⟩⟩ := hf
      refine (mem_intervals_of_withBounds hI).imp_right ?_
      rintro rfl
      rw [Brings, hbounds, hJ, Option.map_some]
  | operand g hx =>
      obtain rfl | ⟨⟨⟩⟩ := hf
      · exact mem_intervals_of_replace hI
      · exact .inl (intervals_subset_of_child? hx hI)
  | noOperand g =>
      obtain rfl | ⟨⟨⟩⟩ := hf
      · exact .inl hI
      · exact .inr hI
  | _ =>
      obtain rfl | ⟨⟨⟩⟩ := hf
      exact .inl hI

/-- The same for a mutation of the node at the end of a path. -/
theorem mem_intervals_of_runAt {m : Mutation Formula} {path : List Slot} {f f' : Formula}
    {after : Mutated} {I : Interval} (h : m.runAt path f = some after)
    (hf : f' = after.formula ∨ after.reply.returned? = some f') (hI : I ∈ f'.intervals) :
    I ∈ f.intervals ∨ ∃ node, f.at? path = some node ∧ m.Brings node I := by
  induction path generalizing f f' after with
  | nil =>
      cases h
      exact ((m.yields_run f).mem_intervals hf hI).imp_right fun hbrings => ⟨f, rfl, hbrings⟩
  | cons slot path ih =>
      rw [runAt, Option.bind_eq_some_iff] at h
      obtain ⟨x, hx, h⟩ := h
      obtain ⟨inner, hinner, rfl⟩ := Option.map_eq_some_iff.mp h
      have hbelow : ∀ g, g = inner.formula ∨ inner.reply.returned? = some g → I ∈ g.intervals →
          I ∈ f.intervals ∨ ∃ node, f.at? (slot :: path) = some node ∧ m.Brings node I := by
        intro g hg hIg
        rw [at?, hx, Option.bind_some]
        exact (ih hinner hg hIg).imp_left fun hmem => intervals_subset_of_child? hx hmem
      obtain rfl | hreturned := hf
      · obtain hmem | hmem := mem_intervals_of_replace hI
        · exact .inl hmem
        · exact hbelow _ (.inl rfl) hmem
      · exact hbelow _ (.inr hreturned) hI

end Mutation

/-! ### Building formulas -/

/-- A formula as it is put together from its parts, before any bounds are checked. -/
inductive Blueprint where
  | const (value : Bool)
  | var (id : UInt32)
  | neg (operand : Blueprint)
  | connective (op : Connective) (left right : Blueprint)
  | unary (op : UnaryTemporal) (lower upper : UInt64) (operand : Blueprint)
  | binary (op : BinaryTemporal) (left : Blueprint) (lower upper : UInt64) (right : Blueprint)

namespace Blueprint

/-- The bounds in a blueprint. -/
def pairs : Blueprint → List (UInt64 × UInt64)
  | const _ | var _ => []
  | neg x => x.pairs
  | connective _ l r => l.pairs ++ r.pairs
  | unary _ lower upper x => (lower, upper) :: x.pairs
  | binary _ l lower upper r => (lower, upper) :: (l.pairs ++ r.pairs)

/-- Builds a formula. Bounds that are out of order are refused. -/
def build : Blueprint → Except BoundsError Formula
  | const b => .ok (.const b)
  | var i => .ok (.var i)
  | neg x => do return .neg (← x.build)
  | connective op l r => do return .connective op (← l.build) (← r.build)
  | unary op lower upper x => do return .unary op (← Interval.of lower upper) (← x.build)
  | binary op l lower upper r => do
    return .binary op (← l.build) (← Interval.of lower upper) (← r.build)

end Blueprint

/-- The parts of a formula. -/
def Formula.blueprint : Formula → Blueprint
  | const b => .const b
  | var i => .var i
  | neg x => .neg x.blueprint
  | connective op l r => .connective op l.blueprint r.blueprint
  | unary op I x => .unary op I.lower I.upper x.blueprint
  | binary op l I r => .binary op l.blueprint I.lower I.upper r.blueprint

theorem Formula.pairs_blueprint (f : Formula) :
    f.blueprint.pairs = f.intervals.map Interval.pair := by
  induction f with
  | const b => rfl
  | var i => rfl
  | neg x ih => exact ih
  | connective op l r ihl ihr =>
      have hintervals : (connective op l r).intervals = l.intervals ++ r.intervals :=
        List.filterMap_append
      rw [hintervals, List.map_append, ← ihl, ← ihr]
      rfl
  | unary op I x ih => exact congrArg (I.pair :: ·) ih
  | binary op l I r ihl ihr =>
      have hintervals : (binary op l I r).intervals = I :: (l.intervals ++ r.intervals) :=
        congrArg (I :: ·) List.filterMap_append
      rw [hintervals, List.map_cons, List.map_append, ← ihl, ← ihr]
      rfl

theorem Interval.of_eq_ok_iff {lower upper : UInt64} {I : Interval} :
    Interval.of lower upper = .ok I ↔ I.pair = (lower, upper) := by
  constructor
  · intro h
    rw [Interval.of] at h
    split at h
    · cases h
      rfl
    · cases h
  · rintro ⟨⟩
    exact dif_pos I.lower_le_upper

/-- A formula is built from its own parts. -/
theorem Formula.build_blueprint (f : Formula) : f.blueprint.build = .ok f := by
  induction f with
  | const b => rfl
  | var i => rfl
  | neg x ih => exact bind_eq_ok_iff.mpr ⟨x, ih, rfl⟩
  | connective op l r ihl ihr =>
      exact bind_eq_ok_iff.mpr ⟨l, ihl, bind_eq_ok_iff.mpr ⟨r, ihr, rfl⟩⟩
  | unary op I x ih =>
      have hI : Interval.of I.lower I.upper = .ok I := Interval.of_eq_ok_iff.mpr rfl
      exact bind_eq_ok_iff.mpr ⟨I, hI, bind_eq_ok_iff.mpr ⟨x, ih, rfl⟩⟩
  | binary op l I r ihl ihr =>
      have hI : Interval.of I.lower I.upper = .ok I := Interval.of_eq_ok_iff.mpr rfl
      exact bind_eq_ok_iff.mpr
        ⟨l, ihl, bind_eq_ok_iff.mpr ⟨I, hI, bind_eq_ok_iff.mpr ⟨r, ihr, rfl⟩⟩⟩

/-- A formula that is built has the parts of the blueprint. -/
theorem Blueprint.eq_blueprint_of_build {b : Blueprint} {f : Formula} (h : b.build = .ok f) :
    b = f.blueprint := by
  induction b generalizing f with
  | const b =>
      cases h
      rfl
  | var i =>
      cases h
      rfl
  | neg x ih =>
      obtain ⟨y, hy, ⟨⟩⟩ := bind_eq_ok_iff.mp h
      rw [ih hy, Formula.blueprint]
  | connective op l r ihl ihr =>
      obtain ⟨y, hy, h⟩ := bind_eq_ok_iff.mp h
      obtain ⟨z, hz, ⟨⟩⟩ := bind_eq_ok_iff.mp h
      rw [ihl hy, ihr hz, Formula.blueprint]
  | unary op lower upper x ih =>
      obtain ⟨I, hI, h⟩ := bind_eq_ok_iff.mp h
      obtain ⟨y, hy, ⟨⟩⟩ := bind_eq_ok_iff.mp h
      cases Interval.of_eq_ok_iff.mp hI
      rw [ih hy, Formula.blueprint]
  | binary op l lower upper r ihl ihr =>
      obtain ⟨y, hy, h⟩ := bind_eq_ok_iff.mp h
      obtain ⟨I, hI, h⟩ := bind_eq_ok_iff.mp h
      obtain ⟨z, hz, ⟨⟩⟩ := bind_eq_ok_iff.mp h
      cases Interval.of_eq_ok_iff.mp hI
      rw [ihl hy, ihr hz, Formula.blueprint]

/-- **What can be built is what formulas consist of**: the blueprints in which all bounds are in
order, each of which is the blueprint of one formula. -/
theorem Blueprint.build_eq_ok_iff {b : Blueprint} {f : Formula} :
    b.build = .ok f ↔ b = f.blueprint := by
  constructor
  · exact Blueprint.eq_blueprint_of_build
  · rintro rfl
    exact f.build_blueprint

/-! ### Runs -/

/-- A call on the formulas at hand, which are numbered. -/
inductive Request where
  | build (b : Blueprint)
  | read (text : String)
  /-- A mutation of the node at the end of a path in one of the formulas. What is offered for a
  slot is the number of another. -/
  | mutate (index : Nat) (path : List Slot) (m : Mutation Nat)

/-- A mutation with the formula that is offered. -/
def Mutation.resolve (pool : List Formula) : Mutation Nat → Option (Mutation Formula)
  | value b => some (value b)
  | id n => some (id n)
  | bounds edit => some (bounds edit)
  | operand slot source => pool[source]?.map (operand slot)

namespace Request

/-- The formulas at hand after a call. Formulas that are built, read or handed out come last. -/
def apply (pool : List Formula) : Request → List Formula
  | build b => pool ++ b.build.toOption.toList
  | read text => pool ++ (parse text).toOption.toList
  | mutate index path m =>
    match pool[index]?, m.resolve pool with
    | some f, some m =>
      match m.runAt path f with
      | some after => pool.set index after.formula ++ after.reply.returned?.toList
      | none => pool
    | _, _ => pool

/-- The formulas at hand after a sequence of calls, if there are none at the start. -/
def run (requests : List Request) : List Formula :=
  requests.foldl apply []

/-- The bounds that a call asks for. -/
def proposed (pool : List Formula) : Request → List (UInt64 × UInt64)
  | build b => b.pairs
  | read text => (parse text).toOption.elim [] fun f => f.intervals.map Interval.pair
  | mutate index path (.bounds edit) =>
    (((pool[index]?.bind (at? path)).bind bounds?).map (·.proposed edit)).toList
  | mutate _ _ _ => []

/-- A formula at hand after another one may have been added was at hand before, or is that
one. -/
theorem mem_append_toOption {ε : Type} {pool : List Formula} {outcome : Except ε Formula}
    {f : Formula} (hf : f ∈ pool ++ outcome.toOption.toList) : f ∈ pool ∨ outcome = .ok f := by
  obtain hold | hnew := List.mem_append.mp hf
  · exact .inl hold
  · cases outcome with
    | error e => cases hnew
    | ok g =>
        cases List.mem_singleton.mp hnew
        exact .inr rfl

/-- A formula at hand after a mutation was at hand before, or is the mutated one, or has been
handed out. -/
theorem mem_apply_mutate {pool : List Formula} {index : Nat} {path : List Slot} {m : Mutation Nat}
    {f : Formula} (hf : f ∈ apply pool (mutate index path m)) :
    f ∈ pool ∨ ∃ g m' after, pool[index]? = some g ∧ m.resolve pool = some m' ∧
      m'.runAt path g = some after ∧ (f = after.formula ∨ after.reply.returned? = some f) := by
  rw [apply] at hf
  split at hf
  · rename_i g m' hg hm
    split at hf
    · rename_i after hafter
      obtain hset | hreturned := List.mem_append.mp hf
      · obtain hold | hnew := List.mem_or_eq_of_mem_set hset
        · exact .inl hold
        · exact .inr ⟨g, m', after, hg, hm, hafter, .inl hnew⟩
      · exact .inr ⟨g, m', after, hg, hm, hafter, .inr (Option.mem_toList.mp hreturned)⟩
    · exact .inl hf
  · exact .inl hf

/-- **A step brings in no intervals but those it asks for.** -/
theorem mem_intervals_apply {pool : List Formula} {request : Request} {f : Formula} {I : Interval}
    (hf : f ∈ request.apply pool) (hI : I ∈ f.intervals) :
    (∃ g ∈ pool, I ∈ g.intervals) ∨ I.pair ∈ request.proposed pool := by
  have hpair : I.pair ∈ f.intervals.map Interval.pair := List.mem_map_of_mem hI
  cases request with
  | build b =>
      obtain hold | hbuild := mem_append_toOption hf
      · exact .inl ⟨f, hold, hI⟩
      · rw [proposed, Blueprint.build_eq_ok_iff.mp hbuild, pairs_blueprint]
        exact .inr hpair
  | read text =>
      obtain hold | hread := mem_append_toOption hf
      · exact .inl ⟨f, hold, hI⟩
      · rw [proposed, hread]
        exact .inr hpair
  | mutate index path m =>
      obtain hold | ⟨g, m', after, hg, hm, hafter, hreached⟩ := mem_apply_mutate hf
      · exact .inl ⟨f, hold, hI⟩
      obtain hmem | ⟨node, hnode, hbrings⟩ := Mutation.mem_intervals_of_runAt hafter hreached hI
      · exact .inl ⟨g, List.mem_of_getElem? hg, hmem⟩
      cases m with
      | value b =>
          cases hm
          exact hbrings.elim
      | id n =>
          cases hm
          exact hbrings.elim
      | bounds edit =>
          cases hm
          rw [Mutation.Brings] at hbrings
          rw [proposed, hg, Option.bind_some, hnode, Option.bind_some, hbrings]
          exact .inr List.mem_cons_self
      | operand slot source =>
          obtain ⟨offer, hoffer, rfl⟩ := Option.map_eq_some_iff.mp hm
          exact .inl ⟨offer, List.mem_of_getElem? hoffer, hbrings⟩

/-- **Every interval in a run has been asked for**: the formulas at hand hold no bounds but those
that a call of the run has asked for when its turn came. Induction on the run. -/
theorem exists_request_of_mem_run {requests : List Request} {f : Formula} {I : Interval}
    (hf : f ∈ run requests) (hI : I ∈ f.intervals) :
    ∃ before request later, requests = before ++ request :: later ∧
      I.pair ∈ request.proposed (run before) := by
  induction requests using List.reverseRecOn generalizing f with
  | nil => cases hf
  | append_singleton requests request ih =>
      rw [run, List.foldl_concat] at hf
      obtain ⟨g, hg, hIg⟩ | hproposed := mem_intervals_apply hf hI
      · obtain ⟨before, asked, later, rfl, hasked⟩ := ih hg hIg
        exact ⟨before, asked, later ++ [request], by simp, hasked⟩
      · exact ⟨requests, request, [], rfl, hproposed⟩

/-- **What a run of mutations keeps.** In all formulas at hand after a run, the bounds of every
temporal operator are in order, and a call of the run has asked for them. Formulas are built from
exactly the blueprints that formulas have. And at whatever node a mutation is made next, that node
keeps its kind, the mutation is refused exactly if the field is missing or the bounds would be out
of order, and a refused mutation leaves the formula as it was and tells the bounds that were
attempted or hands back the offer. -/
theorem run_keeps_bounds_and_kinds (requests : List Request) :
    (∀ f ∈ run requests, ∀ node ∈ f.preorder, ∀ I, node.bounds? = some I →
      I.lower ≤ I.upper ∧ ∃ before request later, requests = before ++ request :: later ∧
        (I.lower, I.upper) ∈ request.proposed (run before)) ∧
    (∀ b f, Blueprint.build b = .ok f ↔ b = f.blueprint) ∧
    ∀ f ∈ run requests, ∀ path node, f.at? path = some node → ∀ m : Mutation Formula,
      ∃ after, m.runAt path f = some after ∧ m.Kept path f node after := by
  refine ⟨fun f hf node hnode I hI => ⟨I.lower_le_upper, ?_⟩,
    fun b f => Blueprint.build_eq_ok_iff, fun f hf path node hnode m => m.exists_kept hnode⟩
  exact exists_request_of_mem_run hf (List.mem_filterMap.mpr ⟨node, hnode, hI⟩)

/-- An interval below a negation keeps its bounds if its lower bound would pass the upper one. -/
theorem run_keeps_bounds_and_kinds_below_negation :
    .neg (.binary .until (.var 0) ⟨2, 5, by decide⟩ (.var 1)) ∈
        run [.build (.binary .until (.var 0) 2 5 (.var 1)), .build (.neg (.var 9)),
          .mutate 1 [] (.operand .operand 0)] ∧
      ∃ after, (Mutation.bounds (.lower 6)).runAt [.operand]
          (.neg (.binary .until (.var 0) ⟨2, 5, by decide⟩ (.var 1))) = some after ∧
        after.formula = .neg (.binary .until (.var 0) ⟨2, 5, by decide⟩ (.var 1)) ∧
        after.reply = .outOfOrder ⟨6, 5⟩ := by
  have hf : Formula.neg (.binary .until (.var 0) ⟨2, 5, by decide⟩ (.var 1)) ∈
      run [.build (.binary .until (.var 0) 2 5 (.var 1)), .build (.neg (.var 9)),
        .mutate 1 [] (.operand .operand 0)] := List.mem_cons_of_mem _ List.mem_cons_self
  obtain ⟨after, hafter, hkept⟩ := (run_keeps_bounds_and_kinds _).2.2 _ hf [.operand]
    (.binary .until (.var 0) ⟨2, 5, by decide⟩ (.var 1)) rfl (.bounds (.lower 6))
  have hreply : after.reply = .outOfOrder ⟨6, 5⟩ :=
    (hkept.outOfOrder_iff ⟨6, 5⟩).mpr ⟨.lower 6, _, rfl, rfl, rfl, by decide⟩
  have hrefused : after.reply.Refused := by
    rw [hreply]
    trivial
  exact ⟨hf, after, hafter, hkept.unchanged hrefused, hreply⟩

end Request

end MissionTime
