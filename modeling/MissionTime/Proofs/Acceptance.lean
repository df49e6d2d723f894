import MissionTime.Proofs.Derivation
import MissionTime.Proofs.Spelling

/-!
# Accepted Texts

A text is divided into tokens and the tokens are read as a formula. Both steps are exact: a
text that is divided to its end spells its tokens, and the tokens are read as the grammar
derives them. Together they make `parse` accept exactly the texts that denote a formula, and
yield the formula that they denote. In particular a text denotes one formula at most.

## Main results

* `parse_eq_ok_iff`: accepted texts and what they denote.
* `parse_of_derives`: a spelled derivation is read if its nesting fits under the limit, and
  refused as too deep if it does not.
-/

namespace MissionTime

open Syntax

/-! ### From outcomes to answers -/

theorem outcome_readText (text : List Char) (gauge : Nat) :
    outcome (readText text) gauge =
      (outcome (formula (scan text).tokens) gauge).bind fun f =>
        if (scan text).tail = [] then .ok f else .error ⟨[], .trailing⟩ := by
  unfold readText
  rw [outcome_bind (balanced_formula _)]
  cases outcome (formula (scan text).tokens) gauge with
  | error e => rfl
  | ok f => by_cases h : (scan text).tail = [] <;> simp only [h, ↓reduceIte] <;> rfl

/-- A text is answered by the outcome of its reading under an empty gauge. -/
theorem parse_eq (text : String) :
    parse text =
      (outcome (readText text.toList) 0).mapError (ParseError.ofFailure text.toList) :=
  rfl

/-! ### Accepted texts -/

/-- The answer for a text is a formula if its reading succeeds. -/
theorem parse_eq_ok_iff_outcome {text : String} {f : Formula} :
    parse text = .ok f ↔ outcome (readText text.toList) 0 = .ok f := by
  rw [parse_eq]
  cases outcome (readText text.toList) 0 <;> simp [Except.mapError]

/-- A reading succeeds if the text is divided to its end and its tokens derive the formula
within the limit. -/
theorem outcome_readText_eq_ok_iff {text : List Char} {f : Formula} {gauge : Nat} :
    outcome (readText text) gauge = .ok f ↔
      (scan text).tail = [] ∧ ∃ k, Derives 6 k (scan text).tokens f ∧ gauge + k ≤ nestingLimit := by
  rw [outcome_readText, bind_eq_ok_iff]
  constructor
  · rintro ⟨g, hg, hdone⟩
    split at hdone
    · rename_i htail
      cases hdone
      exact ⟨htail, outcome_formula_eq_ok_iff.mp hg⟩
    · cases hdone
  · rintro ⟨htail, hderives⟩
    exact ⟨f, outcome_formula_eq_ok_iff.mpr hderives, if_pos htail⟩

theorem denotes_of_parse_eq_ok {text : String} {f : Formula} (h : parse text = .ok f) :
    Denotes text.toList f := by
  obtain ⟨htail, k, hderives, hk⟩ :=
    outcome_readText_eq_ok_iff.mp (parse_eq_ok_iff_outcome.mp h)
  exact ⟨_, k, spells_of_scan htail, hderives, by simpa [nestingLimit] using hk⟩

theorem parse_eq_ok_of_denotes {text : String} {f : Formula} (h : Denotes text.toList f) :
    parse text = .ok f := by
  obtain ⟨ts, k, hspells, hderives, hk⟩ := h
  obtain ⟨htokens, htail⟩ := scan_of_spells hspells hderives.separable.isChain
  refine parse_eq_ok_iff_outcome.mpr (outcome_readText_eq_ok_iff.mpr ⟨htail, k, ?_, ?_⟩)
  · rwa [htokens]
  · simpa [nestingLimit] using hk

/-- **Exact acceptance.** A text is read as a formula exactly if it denotes it: if it spells,
with any blanks around them, tokens that derive the formula with no unary expression under more
than 63 others. -/
theorem parse_eq_ok_iff (text : String) (f : Formula) :
    parse text = .ok f ↔ Denotes text.toList f :=
  ⟨denotes_of_parse_eq_ok, parse_eq_ok_of_denotes⟩

/-! ### Texts that are nested too deeply -/

/-- A text is refused as too deep if that is the reason it is answered with. The error is a
grammatical one. -/
def RefusedAsTooDeep (text : String) : Prop :=
  ∃ e, parse text = .error e ∧ e.category = .grammatical ∧ e.reason = .tooDeep

/-- A spelled derivation is refused as too deep if its nesting is beyond the limit. -/
theorem refusedAsTooDeep_of_derives {text : String} {ts : List Token} {k : Nat} {f : Formula}
    (hspells : Spells ts text.toList) (h : Derives 6 k ts f) (hk : 64 < k) :
    RefusedAsTooDeep text := by
  obtain ⟨htokens, -⟩ := scan_of_spells hspells h.separable.isChain
  have hlimit : nestingLimit < 0 + k := by simpa [nestingLimit] using hk
  obtain ⟨rest, hrest⟩ := outcome_formula_of_too_deep h hlimit
  refine ⟨ParseError.ofFailure text.toList ⟨rest, .tooDeep⟩, ?_, rfl, rfl⟩
  rw [parse_eq, outcome_readText, htokens, hrest]
  rfl

/-- **What becomes of a spelled derivation** is decided by its nesting alone: up to the limit
it is read as its formula, and beyond it is refused as too deep. -/
theorem parse_of_derives {text : String} {ts : List Token} {k : Nat} {f : Formula}
    (hspells : Spells ts text.toList) (h : Derives 6 k ts f) :
    if k ≤ 64 then parse text = .ok f else RefusedAsTooDeep text := by
  split
  · rename_i hk
    exact parse_eq_ok_of_denotes ⟨ts, k, hspells, h, hk⟩
  · rename_i hk
    exact refusedAsTooDeep_of_derives hspells h (Nat.lt_of_not_le hk)

end MissionTime
