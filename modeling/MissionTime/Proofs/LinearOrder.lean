import MissionTime.Proofs.Ordering

/-!
# Formulas in Linear Order

Formulas are in order like the words of a dictionary. A formula is spelled out in numbers: the
place of its kind among all kinds, its payload, then the numbers of its operands from left to
right, and its bounds last. Two such words differ before one of them ends, because the kind tells
what follows. So the comparison of formulas is the comparison of their words, and it takes over
the laws of a linear order from there.

The order itself is given by rules. Each rule names one part of two formulas of the same kind
that decides between them, after all parts that come before it have been found alike.

## Main definitions

* `Kind.rank`: the place of a kind in the list of all kinds.
* `Formula.Precedes`: the rules of the order.
* `Formula.word`: a formula, spelled out in numbers.

## Main results

* `Formula.compare_word_append`: formulas compare like their words.
* `Formula.compare_eq_lt_iff`: a formula is smaller than another one exactly by the rules.
* `Formula.compare_linear`: the order is linear.
-/

namespace MissionTime

/-! ### Parts that are compared as numbers -/

theorem compare_bool (a b : Bool) : compare a b = compare a.toNat b.toNat := by
  cases a <;> cases b <;> rfl

theorem compare_uInt32 (a b : UInt32) : compare a b = compare a.toNat b.toNat := by
  simp only [compare, compareOfLessAndEq, UInt32.lt_iff_toNat_lt, UInt32.toNat_inj]

theorem compare_uInt64 (a b : UInt64) : compare a b = compare a.toNat b.toNat := by
  simp only [compare, compareOfLessAndEq, UInt64.lt_iff_toNat_lt, UInt64.toNat_inj]

/-- The bounds of an interval as numbers. -/
def Interval.word (I : Interval) : List Nat :=
  [I.lower.toNat, I.upper.toNat]

theorem Interval.compare_eq (I J : Interval) :
    compare I J =
      (compare I.lower.toNat J.lower.toNat).then (compare I.upper.toNat J.upper.toNat) := by
  rw [← compare_uInt64, ← compare_uInt64]
  rfl

/-- Intervals are compared by their lower bounds, and by their upper bounds if these are equal. -/
theorem Interval.compare_eq_lt_iff {I J : Interval} :
    compare I J = .lt ↔ I.lower.toNat < J.lower.toNat ∨
      I.lower = J.lower ∧ I.upper.toNat < J.upper.toNat := by
  rw [Interval.compare_eq, Ordering.then_eq_lt, Nat.compare_eq_lt, Nat.compare_eq_lt,
    Nat.compare_eq_eq, UInt64.toNat_inj]

/-- The place of a kind in the list of all kinds. -/
def Kind.rank (k : Kind) : Nat :=
  Kind.all.idxOf k

theorem Kind.rank_eq_ctorIdx (k : Kind) : k.rank = k.ctorIdx := by
  cases k <;> rfl

theorem Kind.compare_eq (k k' : Kind) : compare k k' = compare k.rank k'.rank := by
  rw [rank_eq_ctorIdx, rank_eq_ctorIdx]
  rfl

theorem Connective.compare_eq (o o' : Connective) :
    compare o o' = compare o.kind.rank o'.kind.rank := by
  cases o <;> cases o' <;> rfl

theorem UnaryTemporal.compare_eq (o o' : UnaryTemporal) :
    compare o o' = compare o.kind.rank o'.kind.rank := by
  cases o <;> cases o' <;> rfl

theorem BinaryTemporal.compare_eq (o o' : BinaryTemporal) :
    compare o o' = compare o.kind.rank o'.kind.rank := by
  cases o <;> cases o' <;> rfl

namespace Formula

/-! ### Words -/

/-- A formula, **spelled out** in numbers in the order in which its parts are compared. -/
def word : Formula → List Nat
  | const b => [Kind.constant.rank, b.toNat]
  | var i => [Kind.variable.rank, i.toNat]
  | neg x => Kind.negation.rank :: x.word
  | connective op l r => op.kind.rank :: (l.word ++ r.word)
  | unary op I x => op.kind.rank :: (x.word ++ I.word)
  | binary op l I r => op.kind.rank :: (l.word ++ (r.word ++ I.word))

/-- A word begins with the kind. -/
theorem exists_word_eq_cons (f : Formula) : ∃ rest, f.word = f.kind.rank :: rest := by
  cases f <;> exact ⟨_, rfl⟩

/-- Different kinds decide a comparison. -/
theorem compare_kind_then {k k' : Kind} (h : k ≠ k') (o : Ordering) :
    (Ord.compare k k').then o = Ord.compare k k' := by
  have hne : Ord.compare k k' ≠ .eq := fun heq => h (Std.compare_eq_iff_eq.mp heq)
  cases hcompare : Ord.compare k k' with
  | eq => exact absurd hcompare hne
  | _ => rfl

/-- **Formulas compare like their words**, whatever comes behind these: the words of different
formulas differ before one of them ends. Induction along the comparison. -/
theorem compare_word_append (f g : Formula) (s t : List Nat) :
    Ord.compare (f.word ++ s) (g.word ++ t) = (f.compare g).then (Ord.compare s t) := by
  fun_induction Formula.compare f g generalizing s t with
  | case1 a b =>
      rw [compare_bool]
      simp only [word, List.cons_append, List.nil_append, List.compare_cons_cons,
        Std.ReflOrd.compare_self, Ordering.eq_then]
  | case2 i j =>
      rw [compare_uInt32]
      simp only [word, List.cons_append, List.nil_append, List.compare_cons_cons,
        Std.ReflOrd.compare_self, Ordering.eq_then]
  | case3 x y ih =>
      simp only [word, List.cons_append, List.compare_cons_cons, Std.ReflOrd.compare_self,
        Ordering.eq_then, ih]
  | case4 o l r o' l' r' ihl ihr =>
      simp only [word, List.cons_append, List.append_assoc, List.compare_cons_cons, ihl, ihr,
        Connective.compare_eq, Ordering.then_assoc]
  | case5 o I x o' J y ih =>
      simp only [word, Interval.word, List.cons_append, List.nil_append, List.append_assoc,
        List.compare_cons_cons, ih, UnaryTemporal.compare_eq, Interval.compare_eq,
        Ordering.then_assoc]
  | case6 o l I r o' l' J r' ihl ihr =>
      simp only [word, Interval.word, List.cons_append, List.nil_append, List.append_assoc,
        List.compare_cons_cons, ihl, ihr, BinaryTemporal.compare_eq, Interval.compare_eq,
        Ordering.then_assoc]
  | case7 f g hconst hvar hneg hconnective hunary hbinary =>
      have hkind := kind_ne_of_unlike hconst hvar hneg hconnective hunary hbinary
      obtain ⟨rest, hf⟩ := f.exists_word_eq_cons
      obtain ⟨rest', hg⟩ := g.exists_word_eq_cons
      rw [hf, hg, List.cons_append, List.cons_append, List.compare_cons_cons,
        ← Kind.compare_eq, compare_kind_then hkind, compare_kind_then hkind]

/-- Formulas compare like their words. -/
theorem compare_eq_compare_word (f g : Formula) : f.compare g = Ord.compare f.word g.word := by
  have h := compare_word_append f g [] []
  rw [List.append_nil, List.append_nil, Std.ReflOrd.compare_self, Ordering.then_eq] at h
  exact h.symm

/-! ### The rules of the order -/

/-- **The rules of the order.** A formula precedes another one by its kind; constants and variables
by their payload; and operators of one kind by their operands from left to right, then by their
lower and last by their upper bounds. -/
inductive Precedes : Formula → Formula → Prop
  | kind {f g : Formula} (h : f.kind.rank < g.kind.rank) : Precedes f g
  | value {f g : Formula} (hf : f.value? = some false) (hg : g.value? = some true) : Precedes f g
  | id {f g : Formula} {i j : UInt32} (hf : f.id? = some i) (hg : g.id? = some j)
      (h : i.toNat < j.toNat) : Precedes f g
  | operand {f g x y : Formula} (hkind : f.kind = g.kind) (hf : f.operand? = some x)
      (hg : g.operand? = some y) (h : Precedes x y) : Precedes f g
  | left {f g x y : Formula} (hkind : f.kind = g.kind) (hf : f.left? = some x)
      (hg : g.left? = some y) (h : Precedes x y) : Precedes f g
  | right {f g x y : Formula} (hkind : f.kind = g.kind) (hleft : f.left? = g.left?)
      (hf : f.right? = some x) (hg : g.right? = some y) (h : Precedes x y) : Precedes f g
  | lower {f g : Formula} {I J : Interval} (hkind : f.kind = g.kind)
      (hoperand : f.operand? = g.operand?) (hleft : f.left? = g.left?)
      (hright : f.right? = g.right?) (hf : f.bounds? = some I) (hg : g.bounds? = some J)
      (h : I.lower.toNat < J.lower.toNat) : Precedes f g
  | upper {f g : Formula} {I J : Interval} (hkind : f.kind = g.kind)
      (hoperand : f.operand? = g.operand?) (hleft : f.left? = g.left?)
      (hright : f.right? = g.right?) (hf : f.bounds? = some I) (hg : g.bounds? = some J)
      (hlower : I.lower = J.lower) (h : I.upper.toNat < J.upper.toNat) : Precedes f g

/-! ### The comparison and the rules -/

variable {f g : Formula}

/-- A formula that compares as smaller is smaller by one of the rules. Induction along the
comparison: the rule is that of the first part that does not compare as equal. -/
theorem precedes_of_compare (h : f.compare g = .lt) : f.Precedes g := by
  fun_induction Formula.compare f g with
  | case1 a b =>
      cases a <;> cases b <;> cases h
      exact .value rfl rfl
  | case2 i j =>
      rw [compare_uInt32] at h
      exact .id rfl rfl (Nat.compare_eq_lt.mp h)
  | case3 x y ih => exact .operand rfl rfl rfl (ih h)
  | case4 o l r o' l' r' ihl ihr =>
      obtain ho | ⟨ho, hparts⟩ := Ordering.then_eq_lt.mp h
      · rw [Connective.compare_eq] at ho
        exact .kind (Nat.compare_eq_lt.mp ho)
      obtain rfl := Std.compare_eq_iff_eq.mp ho
      obtain hl | ⟨hl, hr⟩ := Ordering.then_eq_lt.mp hparts
      · exact .left rfl rfl rfl (ihl hl)
      obtain rfl := eq_of_compare_eq hl
      exact .right rfl rfl rfl rfl (ihr hr)
  | case5 o I x o' J y ih =>
      obtain ho | ⟨ho, hparts⟩ := Ordering.then_eq_lt.mp h
      · rw [UnaryTemporal.compare_eq] at ho
        exact .kind (Nat.compare_eq_lt.mp ho)
      obtain rfl := Std.compare_eq_iff_eq.mp ho
      obtain hx | ⟨hx, hI⟩ := Ordering.then_eq_lt.mp hparts
      · exact .operand rfl rfl rfl (ih hx)
      obtain rfl := eq_of_compare_eq hx
      obtain hlower | ⟨hlower, hupper⟩ := Interval.compare_eq_lt_iff.mp hI
      · exact .lower rfl rfl rfl rfl rfl rfl hlower
      · exact .upper rfl rfl rfl rfl rfl rfl hlower hupper
  | case6 o l I r o' l' J r' ihl ihr =>
      obtain ho | ⟨ho, hparts⟩ := Ordering.then_eq_lt.mp h
      · rw [BinaryTemporal.compare_eq] at ho
        exact .kind (Nat.compare_eq_lt.mp ho)
      obtain rfl := Std.compare_eq_iff_eq.mp ho
      obtain hl | ⟨hl, hrest⟩ := Ordering.then_eq_lt.mp hparts
      · exact .left rfl rfl rfl (ihl hl)
      obtain rfl := eq_of_compare_eq hl
      obtain hr | ⟨hr, hI⟩ := Ordering.then_eq_lt.mp hrest
      · exact .right rfl rfl rfl rfl (ihr hr)
      obtain rfl := eq_of_compare_eq hr
      obtain hlower | ⟨hlower, hupper⟩ := Interval.compare_eq_lt_iff.mp hI
      · exact .lower rfl rfl rfl rfl rfl rfl hlower
      · exact .upper rfl rfl rfl rfl rfl rfl hlower hupper
  | case7 f g =>
      rw [Kind.compare_eq] at h
      exact .kind (Nat.compare_eq_lt.mp h)

/-- Operators of one kind are compared by their operands and intervals alone. -/
theorem compare_connective_of_kind_eq {o o' : Connective} {l r l' r' : Formula}
    (h : o.kind = o'.kind) :
    (connective o l r).compare (connective o' l' r') = (l.compare l').then (r.compare r') := by
  rw [compare, Connective.compare_eq, h, Std.ReflOrd.compare_self, Ordering.eq_then]

theorem compare_unary_of_kind_eq {o o' : UnaryTemporal} {I J : Interval} {x y : Formula}
    (h : o.kind = o'.kind) :
    (unary o I x).compare (unary o' J y) = (x.compare y).then (Ord.compare I J) := by
  rw [compare, UnaryTemporal.compare_eq, h, Std.ReflOrd.compare_self, Ordering.eq_then]

theorem compare_binary_of_kind_eq {o o' : BinaryTemporal} {I J : Interval} {l r l' r' : Formula}
    (h : o.kind = o'.kind) :
    (binary o l I r).compare (binary o' l' J r') =
      (l.compare l').then ((r.compare r').then (Ord.compare I J)) := by
  rw [compare, BinaryTemporal.compare_eq, h, Std.ReflOrd.compare_self, Ordering.eq_then]

/-- Formulas of one kind that carry intervals, with the same operands, are compared by their
intervals. -/
theorem compare_eq_compare_bounds {I J : Interval} (hkind : f.kind = g.kind)
    (hoperand : f.operand? = g.operand?) (hleft : f.left? = g.left?)
    (hright : f.right? = g.right?) (hf : f.bounds? = some I) (hg : g.bounds? = some J) :
    f.compare g = Ord.compare I J := by
  have hform := form_eq_of_kind_eq hkind
  cases f <;> cases hf <;> cases g <;> cases hg <;> cases hform
  · cases hoperand
    rw [compare_unary_of_kind_eq hkind, compare_self, Ordering.eq_then]
  · cases hleft
    cases hright
    rw [compare_binary_of_kind_eq hkind, compare_self, compare_self, Ordering.eq_then,
      Ordering.eq_then]

/-- A formula that is smaller by one of the rules compares as smaller. Induction along the
rules. -/
theorem Precedes.compare_eq_lt (h : f.Precedes g) : f.compare g = .lt := by
  induction h with
  | @kind f g h =>
      obtain ⟨rest, hf⟩ := f.exists_word_eq_cons
      obtain ⟨rest', hg⟩ := g.exists_word_eq_cons
      rw [compare_eq_compare_word, hf, hg, List.compare_cons_cons, Nat.compare_eq_lt.mpr h]
      rfl
  | @value f g hf hg =>
      cases f <;> cases hf
      cases g <;> cases hg
      rfl
  | @id f g i j hf hg h =>
      cases f <;> cases hf
      cases g <;> cases hg
      rw [compare, compare_uInt32]
      exact Nat.compare_eq_lt.mpr h
  | @operand f g x y hkind hf hg h ih =>
      have hform := form_eq_of_kind_eq hkind
      cases f <;> cases hf <;> cases g <;> cases hg <;> cases hform
      · exact ih
      · rw [compare_unary_of_kind_eq hkind, ih]
        rfl
  | @left f g x y hkind hf hg h ih =>
      have hform := form_eq_of_kind_eq hkind
      cases f <;> cases hf <;> cases g <;> cases hg <;> cases hform
      · rw [compare_connective_of_kind_eq hkind, ih]
        rfl
      · rw [compare_binary_of_kind_eq hkind, ih]
        rfl
  | @right f g x y hkind hleft hf hg h ih =>
      have hform := form_eq_of_kind_eq hkind
      cases f <;> cases hf <;> cases g <;> cases hg <;> cases hform
      · cases hleft
        rw [compare_connective_of_kind_eq hkind, compare_self, ih]
        rfl
      · cases hleft
        rw [compare_binary_of_kind_eq hkind, compare_self, ih]
        rfl
  | lower hkind hoperand hleft hright hf hg h =>
      rw [compare_eq_compare_bounds hkind hoperand hleft hright hf hg]
      exact Interval.compare_eq_lt_iff.mpr (.inl h)
  | upper hkind hoperand hleft hright hf hg hlower h =>
      rw [compare_eq_compare_bounds hkind hoperand hleft hright hf hg]
      exact Interval.compare_eq_lt_iff.mpr (.inr ⟨hlower, h⟩)

/-- **A formula compares as smaller than another one exactly by the rules.** -/
theorem compare_eq_lt_iff (f g : Formula) : f.compare g = .lt ↔ f.Precedes g := by
  constructor
  · exact precedes_of_compare
  · exact Precedes.compare_eq_lt

/-! ### The laws of a linear order -/

/-- A formula is smaller than another one if it compares as smaller. -/
instance : LT Formula := ltOfOrd

/-- A formula is at most another one if it compares as smaller or equal. -/
instance : LE Formula := leOfOrd

/-- The comparison of words is turned around with its sides, and so is that of formulas. -/
theorem compare_swap (f g : Formula) : g.compare f = (f.compare g).swap := by
  rw [compare_eq_compare_word, compare_eq_compare_word f g]
  exact Std.OrientedCmp.eq_swap

/-- The comparison of words is transitive, and so is that of formulas. -/
theorem isLE_compare_trans {f g h : Formula} (hfg : (f.compare g).isLE)
    (hgh : (g.compare h).isLE) : (f.compare h).isLE := by
  rw [compare_eq_compare_word] at *
  exact Std.TransCmp.isLE_trans hfg hgh

theorem compare_eq_gt_iff (f g : Formula) : f.compare g = .gt ↔ g.compare f = .lt := by
  rw [compare_swap g f, Ordering.swap_eq_gt]

/-- Of two formulas one is smaller, or they are equal, and only one of these is the case. -/
theorem trichotomy (f g : Formula) :
    f < g ∧ f ≠ g ∧ ¬ g < f ∨ ¬ f < g ∧ f = g ∧ ¬ g < f ∨ ¬ f < g ∧ f ≠ g ∧ g < f := by
  have hlt : f < g ↔ f.compare g = .lt := Iff.rfl
  have hgt : g < f ↔ f.compare g = .gt := (compare_eq_gt_iff f g).symm
  rw [hlt, hgt, Ne, ← compare_eq_eq_iff]
  cases f.compare g <;> decide

theorem le_iff_lt_or_eq (f g : Formula) : f ≤ g ↔ f < g ∨ f = g := by
  have hlt : f < g ↔ f.compare g = .lt := Iff.rfl
  have hle : f ≤ g ↔ (f.compare g).isLE := Iff.rfl
  rw [hlt, hle, ← compare_eq_eq_iff, Ordering.isLE_iff_eq_lt_or_eq_eq]

/-- **The order of formulas is linear.** A formula compares as smaller by the rules of the order,
as greater by the same rules the other way round, and as equal to itself alone. A comparison is
turned around with its sides, the order is transitive, exactly one of the three comparisons holds,
and a formula is at most another one if it is smaller or equal. -/
theorem compare_linear (f g h : Formula) :
    (f.compare g = .lt ↔ f.Precedes g) ∧ (f.compare g = .gt ↔ g.Precedes f) ∧
      (f.compare g = .eq ↔ f = g) ∧ g.compare f = (f.compare g).swap ∧
      (f ≤ g → g ≤ h → f ≤ h) ∧
      (f < g ∧ f ≠ g ∧ ¬ g < f ∨ ¬ f < g ∧ f = g ∧ ¬ g < f ∨ ¬ f < g ∧ f ≠ g ∧ g < f) ∧
      (f ≤ g ↔ f < g ∨ f = g) :=
  ⟨f.compare_eq_lt_iff g, (f.compare_eq_gt_iff g).trans (g.compare_eq_lt_iff f),
    f.compare_eq_eq_iff g, f.compare_swap g, isLE_compare_trans, f.trichotomy g,
    f.le_iff_lt_or_eq g⟩

/-- Operands decide before bounds, and the right operand of a binary operator only after the left
one. -/
theorem compare_linear_until :
    let f : Formula := binary .until (var 0) ⟨5, 9, by decide⟩ (var 1)
    let g : Formula := binary .until (var 0) (.point 0) (var 2)
    let h : Formula := binary .until (var 1) (.point 0) (var 0)
    f ≤ g ∧ g ≤ h ∧ f ≤ h := by
  intro f g h
  have hfg : f ≤ g := by decide
  have hgh : g ≤ h := by decide
  exact ⟨hfg, hgh, (compare_linear f g h).2.2.2.2.1 hfg hgh⟩

end Formula

end MissionTime
