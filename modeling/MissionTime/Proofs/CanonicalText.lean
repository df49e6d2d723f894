import MissionTime.Proofs.Ordering
import MissionTime.Proofs.RoundTrip

/-!
# Canonical Texts Identify Formulas

No two formulas have the same canonical text. Reading the text back does not show this, for texts
that are nested too deeply are not read. It is shown on the tokens instead, and needs no reader:
an operand stands between parentheses, and the tokens before its closing parenthesis are those of
one formula only, whatever follows. So the tokens of a formula can be taken apart from the left,
operand by operand, in one way only.

The text determines the tokens, because it is divided into them by the scanner, however deeply
they are nested.

## Main results

* `Formula.eq_of_tokens_append_eq`: an operand ends at one place.
* `Formula.canonical_eq_iff`: formulas with the same canonical text are the same, and compare as
  equal.
-/

namespace MissionTime

open Text Syntax

/-! ### Numerals and intervals -/

/-- Different numbers have different numerals. -/
theorem Text.Numeral.ofNat_inj {m n : Nat} (h : Numeral.ofNat m = Numeral.ofNat n) : m = n := by
  rw [← Numeral.value_ofNat m, h, Numeral.value_ofNat]

/-- Different intervals have different tokens. -/
theorem Interval.eq_of_tokens_eq {I J : Interval} (h : I.tokens = J.tokens) : I = J := by
  simp only [Interval.tokens, List.cons.injEq, Token.number.injEq] at h
  obtain ⟨-, hlower, -, hupper, -⟩ := h
  exact Interval.ext_bounds (UInt64.toNat_inj.mp (Numeral.ofNat_inj hlower))
    (UInt64.toNat_inj.mp (Numeral.ofNat_inj hupper))

/-- The tokens of intervals can be told apart from what follows: they are equally many. -/
theorem Interval.eq_of_tokens_append_eq {I J : Interval} {us vs : List Token}
    (h : I.tokens ++ us = J.tokens ++ vs) : I = J ∧ us = vs := by
  obtain ⟨htokens, hrest⟩ := List.append_inj h rfl
  exact ⟨Interval.eq_of_tokens_eq htokens, hrest⟩

namespace Formula

/-! ### Operands between parentheses -/

section Append

variable (us : List Token)

theorem tokens_neg_append (x : Formula) :
    (neg x).tokens ++ us = .negation :: .openParen :: (x.tokens ++ .closeParen :: us) := by
  simp [tokens, parenthesized]

theorem tokens_connective_append (op : Connective) (l r : Formula) :
    (connective op l r).tokens ++ us = .openParen :: (l.tokens ++ .closeParen ::
      .connective op :: .openParen :: (r.tokens ++ .closeParen :: us)) := by
  simp [tokens, parenthesized]

theorem tokens_unary_append (op : UnaryTemporal) (I : Interval) (x : Formula) :
    (unary op I x).tokens ++ us =
      .unary op :: (I.tokens ++ .openParen :: (x.tokens ++ .closeParen :: us)) := by
  simp [tokens, parenthesized]

theorem tokens_binary_append (op : BinaryTemporal) (I : Interval) (l r : Formula) :
    (binary op l I r).tokens ++ us = .openParen :: (l.tokens ++ .closeParen ::
      .binary op :: (I.tokens ++ .openParen :: (r.tokens ++ .closeParen :: us))) := by
  simp [tokens, parenthesized]

end Append

/-- **An operand ends at one place.** If the tokens of two formulas, each with a closing
parenthesis behind it, begin the same sequence, they are the same formula. Induction on the
first formula, for all that may follow. -/
theorem eq_of_tokens_append_eq {f g : Formula} {us vs : List Token}
    (h : f.tokens ++ .closeParen :: us = g.tokens ++ .closeParen :: vs) : f = g ∧ us = vs := by
  induction f generalizing g us vs with
  | const value =>
      cases g with
      | const value' =>
          cases h
          exact ⟨rfl, rfl⟩
      | _ => simp [tokens, parenthesized] at h
  | var id =>
      cases g with
      | var id' =>
          simp only [tokens, List.cons_append, List.nil_append, List.cons.injEq,
            Token.variable.injEq, true_and] at h
          obtain rfl := UInt32.toNat_inj.mp (Numeral.ofNat_inj h.1)
          exact ⟨rfl, h.2⟩
      | _ => simp [tokens, parenthesized] at h
  | neg x ih =>
      cases g with
      | neg y =>
          rw [tokens_neg_append, tokens_neg_append] at h
          obtain ⟨rfl, hrest⟩ := ih (List.cons.inj (List.cons.inj h).2).2
          exact ⟨rfl, (List.cons.inj hrest).2⟩
      | _ => simp [tokens, parenthesized] at h
  | connective op l r ihl ihr =>
      rw [tokens_connective_append] at h
      cases g with
      | connective op' l' r' =>
          rw [tokens_connective_append] at h
          obtain ⟨rfl, hop⟩ := ihl (List.cons.inj h).2
          simp only [List.cons.injEq, Token.connective.injEq, true_and] at hop
          obtain ⟨rfl, hright⟩ := hop
          obtain ⟨rfl, hrest⟩ := ihr hright
          exact ⟨rfl, (List.cons.inj hrest).2⟩
      | binary op' l' J r' =>
          rw [tokens_binary_append] at h
          obtain ⟨-, hop⟩ := ihl (List.cons.inj h).2
          cases hop
      | _ => simp [tokens, parenthesized] at h
  | unary op I x ih =>
      cases g with
      | unary op' J y =>
          rw [tokens_unary_append, tokens_unary_append, List.cons.injEq, Token.unary.injEq] at h
          obtain ⟨rfl, hbounds⟩ := h
          obtain ⟨rfl, hoperand⟩ := Interval.eq_of_tokens_append_eq hbounds
          obtain ⟨rfl, hrest⟩ := ih (List.cons.inj hoperand).2
          exact ⟨rfl, (List.cons.inj hrest).2⟩
      | _ => simp [tokens, parenthesized] at h
  | binary op l I r ihl ihr =>
      rw [tokens_binary_append] at h
      cases g with
      | connective op' l' r' =>
          rw [tokens_connective_append] at h
          obtain ⟨-, hop⟩ := ihl (List.cons.inj h).2
          cases hop
      | binary op' l' J r' =>
          rw [tokens_binary_append] at h
          obtain ⟨rfl, hop⟩ := ihl (List.cons.inj h).2
          simp only [List.cons.injEq, Token.binary.injEq] at hop
          obtain ⟨rfl, hbounds⟩ := hop
          obtain ⟨rfl, hright⟩ := Interval.eq_of_tokens_append_eq hbounds
          obtain ⟨rfl, hrest⟩ := ihr (List.cons.inj hright).2
          exact ⟨rfl, (List.cons.inj hrest).2⟩
      | _ => simp [tokens, parenthesized] at h

/-- Formulas with the same tokens are the same. -/
theorem eq_of_tokens_eq {f g : Formula} (h : f.tokens = g.tokens) : f = g :=
  (eq_of_tokens_append_eq (congrArg (· ++ [Token.closeParen]) h)).1

/-! ### Texts -/

/-- The canonical text is divided into the tokens of the formula, however many levels there
are. -/
theorem scan_canonical (f : Formula) : (scan f.canonical.toList).tokens = f.tokens := by
  rw [canonical, String.toList_ofList]
  exact (scan_of_spells (spells_spellTokens f.tokens) f.derives_tokens.separable.isChain).1

/-- **The canonical text identifies the formula.** Two formulas of any depth and size have the
same canonical text exactly if they are the same formula, and exactly if they compare as
equal. -/
theorem canonical_eq_iff (f g : Formula) :
    (f.canonical = g.canonical ↔ f = g) ∧ (f.canonical = g.canonical ↔ compare f g = .eq) := by
  have hiff : f.canonical = g.canonical ↔ f = g := by
    constructor
    · intro h
      refine eq_of_tokens_eq ?_
      rw [← f.scan_canonical, h, g.scan_canonical]
    · rintro rfl
      rfl
  exact ⟨hiff, hiff.trans (f.compare_eq_eq_iff g).symm⟩

end Formula

end MissionTime
