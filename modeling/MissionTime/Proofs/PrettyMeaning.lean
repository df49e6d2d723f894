import MissionTime.Evaluation
import MissionTime.Proofs.PrettyRoundTrip

/-!
# The Meaning of Pretty Texts

A pretty text is read back as the formula with its clusters grouped to the left. For four of
the connectives the grouping does not change the value, because their truth tables are
associative. Implication is the exception: `a -> (b -> c)` is laid out without its parentheses
and read back as `(a -> b) -> c`. So the value is kept where no implication is the consequent
of another one.

## Main definitions

* `Formula.PlainConsequents`: formulas without an implication as consequent of an implication.

## Main results

* `Connective.eval_assoc`: all connectives but implication are associative.
* `Formula.regrouping_eval`: evaluation does not see how the other clusters are grouped.
* `evaluateWindow_of_parse_pretty`: what is read back from a pretty text has the same value.
-/

namespace MissionTime

variable {σ : Type} [State σ]

/-- All connectives but implication are associative. -/
theorem Connective.eval_assoc {op : Connective} (h : op ≠ .implies) (a b c : Bool) :
    op.eval (op.eval a b) c = op.eval a (op.eval b c) := by
  cases op with
  | and => exact Bool.and_assoc a b c
  | xor => exact Bool.xor_assoc a b c
  | or => exact Bool.or_assoc a b c
  | implies => exact absurd rfl h
  | equiv => revert a b c; decide

namespace Formula

/-- Formulas in which the **consequents** of implications are not implications themselves. -/
def PlainConsequents : Formula → Prop
  | const _ | var _ => True
  | neg x | unary _ _ x => x.PlainConsequents
  | connective op l r =>
    l.PlainConsequents ∧ r.PlainConsequents ∧ (op = .implies → r.kind ≠ .implies)
  | binary _ l _ r => l.PlainConsequents ∧ r.PlainConsequents

/-- **Evaluation does not see how clusters are grouped**, as long as consequents are plain.
Of two groupings of three implications only the one to the left has plain consequents, so the
relation asks nothing of the other one. -/
theorem regrouping_eval (t : Trace σ) (stop : Nat) : Regrouping fun f g =>
    f.kind = g.kind ∧ (g.PlainConsequents →
      f.PlainConsequents ∧ ∀ start, f.eval t stop start = g.eval t stop start) where
  refl _ := ⟨rfl, fun h => ⟨h, fun _ => rfl⟩⟩
  trans := by
    rintro f g h ⟨hkind, hfg⟩ ⟨hkind', hgh⟩
    refine ⟨hkind.trans hkind', fun hh => ?_⟩
    obtain ⟨hg, hvalue'⟩ := hgh hh
    obtain ⟨hf, hvalue⟩ := hfg hg
    exact ⟨hf, fun start => (hvalue start).trans (hvalue' start)⟩
  neg := by
    rintro x y ⟨-, hxy⟩
    refine ⟨rfl, fun hy => ?_⟩
    obtain ⟨hx, hvalue⟩ := hxy hy
    exact ⟨hx, fun start => by simp only [eval, hvalue]⟩
  connective := by
    rintro op l l' r r' ⟨-, hl⟩ ⟨hkind, hr⟩
    refine ⟨rfl, ?_⟩
    rintro ⟨hl', hr', hconsequent⟩
    obtain ⟨hplain, hvalue⟩ := hl hl'
    obtain ⟨hplain', hvalue'⟩ := hr hr'
    refine ⟨⟨hplain, hplain', hkind ▸ hconsequent⟩, fun start => ?_⟩
    rw [eval_connective, eval_connective, hvalue, hvalue']
  unary := by
    rintro op I x y ⟨-, hxy⟩
    refine ⟨rfl, fun hy => ?_⟩
    obtain ⟨hx, hvalue⟩ := hxy hy
    exact ⟨hx, fun start => eval_unary_congr hvalue op I start⟩
  binary := by
    rintro op I l l' r r' ⟨-, hl⟩ ⟨-, hr⟩
    refine ⟨rfl, ?_⟩
    rintro ⟨hl', hr'⟩
    obtain ⟨hplain, hvalue⟩ := hl hl'
    obtain ⟨hplain', hvalue'⟩ := hr hr'
    exact ⟨⟨hplain, hplain'⟩, fun start => eval_binary_congr hvalue hvalue' op I start⟩
  assoc op a b c := by
    refine ⟨rfl, ?_⟩
    rintro ⟨ha, ⟨hb, hc, -⟩, hconsequent⟩
    have hop : op ≠ .implies := by
      rintro rfl
      exact hconsequent rfl rfl
    refine ⟨⟨⟨ha, hb, fun h => absurd h hop⟩, hc, fun h => absurd h hop⟩, fun start => ?_⟩
    simp only [eval_connective, Connective.eval_assoc hop]

/-- Grouping clusters to the left keeps the value of a formula with plain consequents. -/
theorem evaluateWindow_reassoc {f : Formula} (hf : f.PlainConsequents) (t : Trace σ)
    (start stop : Nat) : f.reassoc.evaluateWindow t start stop = f.evaluateWindow t start stop :=
  (((regrouping_eval t (min stop t.size)).reassoc f).2 hf).2 _

/-- An implication as consequent: where all variables are false, the formula is true and its
grouping to the left is false. -/
example :
    let f : Formula := connective .implies (var 0) (connective .implies (var 1) (var 2))
    let t : Trace (List Bool) := .ofList [[false, false, false]]
    f.evaluate t = true ∧ f.reassoc.evaluate t = false := by
  decide

end Formula

/-! ### Reading back -/

/-- What is read back from a pretty text is the formula with its clusters grouped to the left. -/
theorem eq_reassoc_of_parse_pretty {f g : Formula} (h : parse f.pretty = .ok g) :
    g = f.reassoc := by
  have hread := read_pretty f
  split at hread
  · exact Except.ok.inj (h.symm.trans hread)
  · obtain ⟨e, he, -⟩ := hread
    cases h.symm.trans he

/-- **Pretty texts keep their meaning** but for implications that are consequents. If no
implication is the consequent of an implication in a formula, what is read back from its pretty
text has the same value on every window of every trace. -/
theorem evaluateWindow_of_parse_pretty {f g : Formula} (hf : f.PlainConsequents)
    (h : parse f.pretty = .ok g) (t : Trace σ) (start stop : Nat) :
    g.evaluateWindow t start stop = f.evaluateWindow t start stop := by
  rw [eq_reassoc_of_parse_pretty h]
  exact Formula.evaluateWindow_reassoc hf t start stop

/-- An equivalence that is regrouped below a temporal operator, with an implication as
antecedent of another one. -/
theorem evaluateWindow_regrouped_equivalence :
    let a : Formula := .connective .implies (.connective .implies (.var 0) (.var 1)) (.var 2)
    let f : Formula := .unary .globally ⟨0, 2, by decide⟩
      (.connective .equiv a (.connective .equiv (.var 1) (.var 2)))
    let g : Formula := .unary .globally ⟨0, 2, by decide⟩
      (.connective .equiv (.connective .equiv a (.var 1)) (.var 2))
    let t : Trace (List Bool) := .ofList [[true, false, true], [false, true], [true, true, true]]
    f ≠ g ∧ f.PlainConsequents ∧ parse f.pretty = .ok g ∧
      g.evaluateWindow t 1 3 = f.evaluateWindow t 1 3 := by
  intro a f g t
  have hplain : f.PlainConsequents := by simp [f, a, Formula.PlainConsequents, Formula.kind]
  have hread : parse f.pretty = .ok g := by
    have h := read_pretty f
    rwa [if_pos (by decide)] at h
  exact ⟨by decide, hplain, hread, evaluateWindow_of_parse_pretty hplain hread t 1 3⟩

end MissionTime
