import MissionTime.Proofs.Acceptance
import MissionTime.Syntax.Layout

/-!
# Canonical Texts Read Back

The canonical layout puts every operand in parentheses, so its tokens derive the formula
whatever the operators are. What the parentheses cost is nesting: each pair is a unary
expression of its own, and so are negations and the unary temporal operators. The nesting of
the canonical text of a formula is a function of the formula, `Formula.canonicalNesting`, and
decides whether the text can be read back.

## Main results

* `Formula.derives_tokens`: the canonical tokens derive the formula.
* `parse_canonical`: the canonical text is read back as the formula, or refused as too deep.
-/

namespace MissionTime

open Text Syntax

/-! ### Tokens and derivations -/

namespace Syntax

/-- Tokens that stand side by side are spelled without blanks. -/
theorem spells_spellTokens (ts : List Token) : Spells ts (spellTokens ts) := by
  induction ts with
  | nil => exact .nil (List.forall_mem_nil _)
  | cons t ts ih => exact .cons (List.forall_mem_nil _) t.word_spelling ih

/-- Parentheses make a unary expression of any expression, one level deeper. -/
theorem Derives.parenthesized {k : Nat} {ts : List Token} {f : Formula}
    (h : Derives 6 k ts f) : Derives 0 (k + 1) (parenthesized ts) f :=
  .parens h

/-- The tokens of an interval derive it. -/
theorem derivesInterval_tokens (I : Interval) : DerivesInterval I.tokens I :=
  .bounds (Numeral.value_ofNat _) (Numeral.value_ofNat _)

/-- A connective joins an expression of its level and a unary one on its right. -/
theorem Derives.connective {op : Connective} {k m : Nat} {ts us : List Token} {l r : Formula}
    (hl : Derives (connectiveLevel op) k ts l) (hr : Derives 0 m us r) :
    Derives (connectiveLevel op) (max k m) (ts ++ .connective op :: us) (.connective op l r) := by
  have hop := derivesInfix_connective op
  obtain ⟨n, hn⟩ : ∃ n, connectiveLevel op = n + 1 := by cases op <;> exact ⟨_, rfl⟩
  rw [hn] at hl hop ⊢
  exact .chain hl hop (hr.mono (Nat.zero_le n)) (.connective op l r)

/-- A binary temporal operator joins unary expressions. -/
theorem Derives.binary {op : BinaryTemporal} {k m : Nat} {ts us : List Token} {I : Interval}
    {l r : Formula} (hl : Derives 0 k ts l) (hr : Derives 0 m us r) :
    Derives 1 (max k m) (ts ++ .binary op :: I.tokens ++ us) (.binary op l I r) := by
  rw [List.append_assoc]
  exact .chain (.single hl) (.temporal (derivesInterval_tokens I)) hr (.temporal op I l r)

end Syntax

/-! ### The canonical layout -/

namespace Formula

/-- The nesting of the canonical text. Below a negation and below a unary temporal operator
there are two more levels, the operator and its parentheses, and below the other operators
there is one, the parentheses. -/
def canonicalNesting : Formula → Nat
  | const _ | var _ => 1
  | neg x | unary _ _ x => 2 + x.canonicalNesting
  | connective _ l r | binary _ l _ r => 1 + max l.canonicalNesting r.canonicalNesting

/-- **The canonical tokens derive the formula.** -/
theorem derives_tokens (f : Formula) : Derives 6 f.canonicalNesting f.tokens f := by
  induction f with
  | const value => exact Derives.mono (.constant value) (Nat.zero_le 6)
  | var id => exact Derives.mono (.variable (Numeral.value_ofNat _)) (Nat.zero_le 6)
  | neg x ih =>
      have h := Derives.negation ih.parenthesized
      rw [canonicalNesting, Nat.add_comm 2]
      exact h.mono (Nat.zero_le 6)
  | unary op I x ih =>
      have h : Derives 0 _ _ (.unary op I x) :=
        .unary (derivesInterval_tokens I) ih.parenthesized
      rw [canonicalNesting, Nat.add_comm 2]
      exact h.mono (Nat.zero_le 6)
  | connective op l r ihl ihr =>
      have h : Derives (connectiveLevel op) _ _ (.connective op l r) :=
        .connective (ihl.parenthesized.mono (Nat.zero_le _)) ihr.parenthesized
      rw [canonicalNesting, Nat.add_comm 1, ← Nat.add_max_add_right]
      exact h.mono (connectiveLevel_le op)
  | binary op l I r ihl ihr =>
      have h : Derives 1 _ _ (.binary op l I r) :=
        .binary ihl.parenthesized ihr.parenthesized
      rw [canonicalNesting, Nat.add_comm 1, ← Nat.add_max_add_right]
      exact h.mono (by decide)

end Formula

/-! ### Reading back -/

/-- **Canonical texts read back.** The canonical text of a formula is read as that formula if
its nesting is at most 64, and is refused as too deep if not. Nothing else can happen, however
large the formula is. -/
theorem parse_canonical (f : Formula) :
    if f.canonicalNesting ≤ 64 then parse f.canonical = .ok f
    else RefusedAsTooDeep f.canonical := by
  have hspells : Spells f.tokens f.canonical.toList := by
    rw [Formula.canonical, String.toList_ofList]
    exact spells_spellTokens f.tokens
  exact parse_of_derives hspells f.derives_tokens

end MissionTime
