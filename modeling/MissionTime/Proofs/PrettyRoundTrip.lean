import MissionTime.Proofs.Reassociation
import MissionTime.Proofs.RoundTrip

/-!
# Pretty Texts Read Back

The pretty layout leaves out the parentheses around an operand of the same connective, so a
cluster appears in it as one chain of operands. The grammar groups chains to the left. What a
pretty text is read back as is therefore the formula with its clusters grouped to the left,
`Formula.reassoc`, and not the formula itself.

The proof follows a chain as it is read. `Formula.ContinuesChain` says that an operand, laid
out behind a connective, continues any chain of that connective: an operand with another root
adds one link to it, and one that is a chain itself adds all its links.

## Main definitions

* `Formula.prettyNesting`: the nesting of the pretty text.

## Main results

* `Formula.derives_layout`: the tokens of the pretty layout derive the regrouped formula.
* `read_pretty`: what pretty texts are read back as.
* `parse_pretty`: the same, and what is kept.
-/

namespace MissionTime

open Text Syntax

/-! ### Tokens of a layout -/

namespace Syntax

/-- The token of a piece that is not blank. -/
def Piece.token? : Piece → Option Token
  | .blank => none
  | .token t => some t

/-- The tokens of a layout. -/
def layoutTokens (pieces : List Piece) : List Token :=
  pieces.filterMap Piece.token?

@[simp] theorem layoutTokens_nil : layoutTokens [] = [] := rfl

@[simp] theorem layoutTokens_blank (pieces : List Piece) :
    layoutTokens (.blank :: pieces) = layoutTokens pieces := rfl

@[simp] theorem layoutTokens_token (t : Token) (pieces : List Piece) :
    layoutTokens (.token t :: pieces) = t :: layoutTokens pieces := rfl

@[simp] theorem layoutTokens_append (a b : List Piece) :
    layoutTokens (a ++ b) = layoutTokens a ++ layoutTokens b :=
  List.filterMap_append

@[simp] theorem layoutTokens_map_token (ts : List Token) :
    layoutTokens (ts.map .token) = ts := by
  induction ts with
  | nil => rfl
  | cons t ts ih => exact congrArg (t :: ·) ih

/-- The text of a layout spells its tokens. -/
theorem spells_spell (pieces : List Piece) : Spells (layoutTokens pieces) (spell pieces) := by
  induction pieces with
  | nil => exact .nil (List.forall_mem_nil _)
  | cons piece pieces ih =>
      cases piece with
      | blank => exact ih.blanks_append (List.forall_mem_singleton.mpr (by decide))
      | token t => exact .cons (List.forall_mem_nil _) t.word_spelling ih

end Syntax

namespace Formula

/-! ### The nesting of the pretty text -/

/-- The nesting of the pretty text. A unary operator adds a level, and so do parentheses:
those around a binary operator below a unary or temporal one, and those around a binary
operator below a connective of another kind. -/
def prettyNesting : Formula → Nat
  | const _ | var _ => 1
  | neg x | unary _ _ x => 1 + (x.prettyNesting + if x.kind.isBinary then 1 else 0)
  | connective op l r =>
    max (l.prettyNesting + if l.kind.isBinary ∧ l.kind ≠ op.kind then 1 else 0)
      (r.prettyNesting + if r.kind.isBinary ∧ r.kind ≠ op.kind then 1 else 0)
  | binary _ l _ r =>
    max (l.prettyNesting + if l.kind.isBinary then 1 else 0)
      (r.prettyNesting + if r.kind.isBinary then 1 else 0)

/-- The nesting of an operand below a node of kind `k`, with the parentheses it needs there. -/
def operandNesting (k : Kind) (f : Formula) : Nat :=
  f.prettyNesting + if needsParens k f then 1 else 0

/-- The tokens of an operand below a node of kind `k`, with the parentheses it needs there. -/
def operandTokens (k : Kind) (f : Formula) : List Token :=
  layoutTokens (layoutOperand (needsParens k f) f.layout)

/-- Below a connective, binary operators of other kinds need parentheses. -/
theorem needsParens_connective_iff (op : Connective) (f : Formula) :
    needsParens op.kind f = true ↔ f.kind.isBinary ∧ f.kind ≠ op.kind := by
  have hop : op.kind.isPropositional = true := by cases op <;> rfl
  simp [needsParens, hop]

/-- Below an operator that is no connective, all binary operators need parentheses. -/
theorem needsParens_eq_isBinary {k : Kind} (hk : (k.isPropositional && k.isBinary) = false)
    (f : Formula) : needsParens k f = f.kind.isBinary := by
  rw [needsParens]
  by_cases hf : f.kind = k
  · subst hf
    cases hp : f.kind.isPropositional <;> simp_all
  · simp [hf]

theorem prettyNesting_neg (x : Formula) :
    (neg x).prettyNesting = x.operandNesting .negation + 1 := by
  rw [prettyNesting, operandNesting, needsParens_eq_isBinary rfl, Nat.add_comm]

theorem prettyNesting_unary (op : UnaryTemporal) (I : Interval) (x : Formula) :
    (unary op I x).prettyNesting = x.operandNesting op.kind + 1 := by
  rw [prettyNesting, operandNesting, needsParens_eq_isBinary (by cases op <;> rfl), Nat.add_comm]

theorem prettyNesting_connective (op : Connective) (l r : Formula) :
    (connective op l r).prettyNesting =
      max (l.operandNesting op.kind) (r.operandNesting op.kind) := by
  simp only [prettyNesting, operandNesting, needsParens_connective_iff]

theorem prettyNesting_binary (op : BinaryTemporal) (l r : Formula) (I : Interval) :
    (binary op l I r).prettyNesting =
      max (l.operandNesting op.kind) (r.operandNesting op.kind) := by
  have hop : (op.kind.isPropositional && op.kind.isBinary) = false := by cases op <;> rfl
  rw [prettyNesting, operandNesting, operandNesting, needsParens_eq_isBinary hop,
    needsParens_eq_isBinary hop]

/-! ### Derivations of operands -/

/-- The level of the grammar at which the layout of a formula is derived. -/
def rootLevel : Formula → Nat
  | connective op _ _ => connectiveLevel op
  | binary _ _ _ _ => 1
  | _ => 0

theorem rootLevel_le (f : Formula) : f.rootLevel ≤ 6 := by
  cases f with
  | connective op l r => exact connectiveLevel_le op
  | _ => simp [rootLevel]

theorem rootLevel_eq_zero {f : Formula} (h : f.kind.isBinary = false) : f.rootLevel = 0 := by
  cases f with
  | connective op l r => cases op <;> cases h
  | binary op l I r => cases op <;> cases h
  | _ => rfl

/-- The layout of a formula derives it, grouped to the left. -/
def LayoutDerives (f : Formula) : Prop :=
  Derives f.rootLevel f.prettyNesting (layoutTokens f.layout) f.reassoc

/-- An operand that is no binary operator, or that stands in parentheses, is a unary
expression. -/
theorem LayoutDerives.operand {f : Formula} (h : f.LayoutDerives) {k : Kind}
    (hk : needsParens k f = false → f.kind.isBinary = false) :
    Derives 0 (f.operandNesting k) (f.operandTokens k) f.reassoc := by
  rw [operandNesting, operandTokens, layoutOperand]
  cases hparens : needsParens k f with
  | false =>
      have hlevel := rootLevel_eq_zero (hk hparens)
      rw [LayoutDerives, hlevel] at h
      exact h
  | true =>
      have hp := (h.mono f.rootLevel_le).parenthesized
      simpa [parenthesized] using hp

/-- The operand of an operator that is no connective is a unary expression. -/
theorem LayoutDerives.operand_of_not_connective {f : Formula} (h : f.LayoutDerives) {k : Kind}
    (hk : (k.isPropositional && k.isBinary) = false) :
    Derives 0 (f.operandNesting k) (f.operandTokens k) f.reassoc :=
  h.operand fun hparens => needsParens_eq_isBinary hk f ▸ hparens

/-- The operand of a connective, if it is not of the same kind, is a unary expression. -/
theorem LayoutDerives.operand_of_kind_ne {f : Formula} (h : f.LayoutDerives) {op : Connective}
    (hne : f.kind ≠ op.kind) :
    Derives 0 (f.operandNesting op.kind) (f.operandTokens op.kind) f.reassoc := by
  refine h.operand fun hparens => ?_
  rw [← Bool.not_eq_true] at hparens ⊢
  exact fun hbinary => hparens ((needsParens_connective_iff op f).mpr ⟨hbinary, hne⟩)

/-- The operand of a connective of its own kind stands there as it is. -/
theorem operand_of_kind_eq {f : Formula} {op : Connective} (h : f.kind = op.kind) :
    f.operandNesting op.kind = f.prettyNesting ∧
      f.operandTokens op.kind = layoutTokens f.layout := by
  simp [operandNesting, operandTokens, layoutOperand, needsParens_of_kind_eq h]

/-- The left operand of a connective is an expression of its level. -/
theorem LayoutDerives.left {f : Formula} (h : f.LayoutDerives) (op : Connective) :
    Derives (connectiveLevel op) (f.operandNesting op.kind) (f.operandTokens op.kind)
      f.reassoc := by
  by_cases hkind : f.kind = op.kind
  · obtain ⟨hnesting, htokens⟩ := operand_of_kind_eq hkind
    obtain ⟨l, r, rfl⟩ := exists_of_kind_eq hkind
    rw [hnesting, htokens]
    exact h
  · exact (h.operand_of_kind_ne hkind).mono (Nat.zero_le _)

/-! ### Chains -/

/-- Behind a connective, an operand **continues a chain** of that connective: it joins the
operands of its own cluster to what stands on the left, one after the other. -/
def ContinuesChain (op : Connective) (f : Formula) : Prop :=
  ∀ {k : Nat} {ts : List Token} {left : Formula}, Derives (connectiveLevel op) k ts left →
    Derives (connectiveLevel op) (max k (f.operandNesting op.kind))
      (ts ++ .connective op :: f.operandTokens op.kind)
      ((f.reassoc.clusterOperands op).foldl (connective op) left)

/-- An operand of another kind is one more link of the chain. -/
theorem LayoutDerives.continuesChain {f : Formula} (h : f.LayoutDerives) {op : Connective}
    (hne : f.kind ≠ op.kind) : ContinuesChain op f := by
  intro k ts left hleft
  rw [clusterOperands_of_kind_ne (by rwa [kind_reassoc])]
  exact hleft.connective (h.operand_of_kind_ne hne)

/-- An operand that is a chain itself continues the chain with its left part and then with its
right part. -/
theorem ContinuesChain.node {op : Connective} {a b : Formula} (ha : ContinuesChain op a)
    (hb : ContinuesChain op b) : ContinuesChain op (connective op a b) := by
  intro k ts left hleft
  have hkind : (connective op a b).kind = op.kind := rfl
  obtain ⟨hnesting, htokens⟩ := operand_of_kind_eq hkind
  have h := hb (ha hleft)
  rw [hnesting, htokens, prettyNesting_connective, reassoc,
    clusterOperands_foldl fun g => kind_ne_of_mem_clusterOperands, List.foldl_append,
    ← Nat.max_assoc]
  simpa [layout, operandTokens] using h

/-- **The tokens of the pretty layout derive the formula grouped to the left.** The induction
also carries how a formula continues a chain: by its links if it is one, and as a single link
if it has another root. -/
theorem derives_layout (f : Formula) :
    f.LayoutDerives ∧ ∀ op, ContinuesChain op f := by
  -- A formula whose root is no connective is a single link of any chain.
  have single {f : Formula} (h : f.LayoutDerives) (hf : ∀ op l r, f ≠ connective op l r) :
      f.LayoutDerives ∧ ∀ op, ContinuesChain op f := by
    refine ⟨h, fun op => h.continuesChain fun hkind => ?_⟩
    obtain ⟨l, r, hroot⟩ := exists_of_kind_eq hkind
    exact hf op l r hroot
  induction f with
  | const value => exact single (.constant value) (by rintro op l r ⟨⟩)
  | var id => exact single (.variable (Numeral.value_ofNat _)) (by rintro op l r ⟨⟩)
  | neg x ih =>
      refine single ?_ (by rintro op' l r ⟨⟩)
      have h := Derives.negation (ih.1.operand_of_not_connective (k := .negation) rfl)
      rw [← prettyNesting_neg] at h
      exact h
  | unary op I x ih =>
      refine single ?_ (by rintro op' l r ⟨⟩)
      have hop : (op.kind.isPropositional && op.kind.isBinary) = false := by cases op <;> rfl
      have h : Derives 0 _ _ (.unary op I x.reassoc) :=
        .unary (derivesInterval_tokens I) (ih.1.operand_of_not_connective hop)
      rw [← prettyNesting_unary op I] at h
      simpa [LayoutDerives, layout, operandTokens, rootLevel, reassoc] using h
  | binary op l I r ihl ihr =>
      refine single ?_ (by rintro op' l' r' ⟨⟩)
      have hop : (op.kind.isPropositional && op.kind.isBinary) = false := by cases op <;> rfl
      have h : Derives 1 _ _ (.binary op l.reassoc I r.reassoc) :=
        .binary (ihl.1.operand_of_not_connective hop) (ihr.1.operand_of_not_connective hop)
      rw [← prettyNesting_binary op l r I] at h
      simpa [LayoutDerives, layout, operandTokens, rootLevel, reassoc] using h
  | connective op l r ihl ihr =>
      have h : (connective op l r).LayoutDerives := by
        have hchain := ihr.2 op (ihl.1.left op)
        rw [← prettyNesting_connective] at hchain
        simpa [LayoutDerives, layout, operandTokens, rootLevel, reassoc] using hchain
      refine ⟨h, fun op' => ?_⟩
      by_cases hop : op = op'
      · subst hop
        exact ContinuesChain.node (ihl.2 op) (ihr.2 op)
      · exact h.continuesChain fun hkind => hop (Connective.kind_inj.mp hkind)

end Formula

/-! ### Reading back -/

/-- A pretty text is read as the formula with its clusters grouped to the left, if it is not
refused as too deep. -/
theorem read_pretty (f : Formula) :
    if f.prettyNesting ≤ 64 then parse f.pretty = .ok f.reassoc
    else RefusedAsTooDeep f.pretty := by
  have hspells : Spells (layoutTokens f.layout) f.pretty.toList := by
    rw [Formula.pretty, String.toList_ofList]
    exact spells_spell f.layout
  exact parse_of_derives hspells (f.derives_layout.1.mono f.rootLevel_le)

/-- **Pretty texts read back.** The pretty text of a formula is read as the formula with its
clusters grouped to the left if its nesting is at most 64, and is refused as too deep if not.
Grouping to the left leaves the pretty text as it is, and with it the size, the count of each
kind and the future reach; it changes a formula unless all is grouped to the left already. -/
theorem parse_pretty (f : Formula) :
    (if f.prettyNesting ≤ 64 then parse f.pretty = .ok f.reassoc
      else RefusedAsTooDeep f.pretty) ∧
    f.reassoc.pretty = f.pretty ∧
    (f.reassoc = f ↔ f.LeftGrouped) ∧
    f.reassoc.size = f.size ∧
    (∀ k, f.reassoc.count k = f.count k) ∧
    f.reassoc.futureReach = f.futureReach :=
  ⟨read_pretty f, f.pretty_reassoc, f.reassoc_eq_self_iff, f.size_reassoc,
    fun k => f.count_reassoc k, f.futureReach_reassoc⟩

end MissionTime
