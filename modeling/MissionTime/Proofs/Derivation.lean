import MissionTime.Proofs.Equations
import MissionTime.Proofs.Grammar

/-!
# Readings and Derivations

The readings of the grammar accept the tokens that the grammar derives, yield the formula that
is derived, and do so up to the limit on nesting; beyond it they fail for that reason alone.

Soundness is an induction along the recursion of the readings. In a chain it carries the
derivation of what stands on the left. Completeness is an induction on the derivation. A
derivation of a chain ends with the last operator, while the reading begins with the first, so
what is shown of a left part is how the reading goes on: an expression of level `n + 1` reads
its first operand and continues as the chain from there.

## Main results

* `joins_iff`: operands are joined as the grammar joins them.
* `derives_of_result_expression`: what is read is derived, within the limit.
* `result_expression_of_derives`: what is derived within the limit is read.
* `result_expression_of_too_deep`: what is derived beyond it is refused as too deep.
-/

namespace MissionTime.Syntax

open Text

/-! ### Intervals and infix operators -/

theorem result_expect_eq_ok_iff {token : Token} {what : Expectation} {s rest : List Token}
    {u : Unit} {gauge : Nat} :
    result (expect token what s) gauge = .ok (u, rest) ↔ s = token :: rest := by
  rw [result_expect]
  cases s with
  | nil => simp
  | cons t s => by_cases h : t = token <;> simp [h]

/-- A bound is read from a numeral that has its value. -/
theorem result_bound_eq_ok_iff {what : Expectation} {s rest : List Token} {b : UInt64}
    {gauge : Nat} :
    result (bound what s) gauge = .ok (b, rest) ↔
      ∃ n : Numeral, n.value = b.toNat ∧ s = .number n :: rest := by
  rw [result_bound]
  split
  · rename_i n s
    constructor
    · intro h
      split at h
      · cases h
        exact ⟨n, by simp, rfl⟩
      · cases h
    · rintro ⟨m, hm, hs⟩
      cases hs
      have hlt : n.value < UInt64.size := hm ▸ b.toNat_lt_size
      rw [dif_pos hlt]
      simp [hm]
  · rename_i hs
    constructor
    · intro h
      cases h
    · rintro ⟨n, -, rfl⟩
      exact absurd rfl (hs n rest)

/-- An interval is read from the tokens that derive it. -/
theorem result_interval_eq_ok_iff {s rest : List Token} {I : Interval} {gauge : Nat} :
    result (interval s) gauge = .ok (I, rest) ↔
      ∃ ts, DerivesInterval ts I ∧ s = ts ++ rest := by
  rw [result_interval]
  simp only [bind_eq_ok_iff, Prod.exists, result_expect_eq_ok_iff, result_bound_eq_ok_iff]
  constructor
  · rintro ⟨-, s₁, rfl, a, s₂, ⟨m, hm, rfl⟩, -, s₃, rfl, b, s₄, ⟨n, hn, rfl⟩, -, s₅, rfl, h⟩
    by_cases hab : a ≤ b
    · simp only [Interval.of, dif_pos hab] at h
      cases h
      exact ⟨_, .bounds hm hn, rfl⟩
    · simp only [Interval.of, dif_neg hab] at h
      cases h
  · rintro ⟨ts, @⟨m, n, I, hm, hn⟩, rfl⟩
    refine ⟨(), _, rfl, I.lower, _, ⟨m, hm, rfl⟩, (), _, rfl, I.upper, _, ⟨n, hn, rfl⟩, (), _,
      rfl, ?_⟩
    simp only [Interval.of, dif_pos I.lower_le_upper]
    rfl

theorem result_interval_of_derives {ts : List Token} {I : Interval}
    (h : DerivesInterval ts I) (rest : List Token) (gauge : Nat) :
    result (interval (ts ++ rest)) gauge = .ok (I, rest) :=
  result_interval_eq_ok_iff.mpr ⟨ts, h, rfl⟩

/-- An infix operator is read from the tokens that derive it, at its level. -/
theorem infixResult_eq_some_iff {n : Nat} {s rest : List Token} {op : InfixOperator}
    {gauge : Nat} :
    infixResult n s gauge = .ok (some (op, rest)) ↔
      ∃ ts, DerivesInfix n ts op ∧ s = ts ++ rest := by
  rw [infixResult_eq]
  constructor
  · intro h
    split at h
    · rename_i c s
      split at h
      · rename_i hlevel
        cases h
        exact ⟨_, hlevel ▸ derivesInfix_connective c, rfl⟩
      · cases h
    · rename_i b s
      split at h
      · rename_i hlevel
        cases hI : result (interval s) gauge with
        | error e =>
            rw [hI] at h
            cases h
        | ok p =>
            rw [hI] at h
            cases h
            obtain ⟨ts, hts, rfl⟩ := result_interval_eq_ok_iff.mp hI
            subst hlevel
            exact ⟨_, .temporal hts, rfl⟩
      · cases h
    · cases h
  · rintro ⟨ts, hts, rfl⟩
    cases hts with
    | @temporal b ts I hI =>
        have hread := result_interval_of_derives hI rest gauge
        simp only [List.cons_append, temporalLevel, ↓reduceIte, hread]
        rfl
    | _ => rfl

theorem infixResult_of_derives {n : Nat} {ts : List Token} {op : InfixOperator}
    (h : DerivesInfix n ts op) (rest : List Token) (gauge : Nat) :
    infixResult n (ts ++ rest) gauge = .ok (some (op, rest)) :=
  infixResult_eq_some_iff.mpr ⟨ts, h, rfl⟩

/-- **The reader joins operands as the grammar does.** -/
theorem joins_iff {op : InfixOperator} {l r x : Formula} :
    Joins op l r x ↔ op.apply l r = x := by
  constructor
  · rintro (_ | _) <;> rfl
  · rintro rfl
    cases op with
    | connective op => exact .connective op l r
    | temporal op I => exact .temporal op I l r

theorem joins_apply (op : InfixOperator) (l r : Formula) : Joins op l r (op.apply l r) :=
  joins_iff.mpr rfl

/-! ### Soundness -/

/-- A reading of `s` as level `n` is sound if the tokens that a success takes derive the formula
that it yields, with a nesting that fits under the limit. -/
def SoundFor (n : Nat) (s : List Token) (read : Nat → Except Failure (Formula × List Token)) :
    Prop :=
  ∀ gauge x rest, read gauge = .ok (x, rest) →
    ∃ ts k, s = ts ++ rest ∧ Derives n k ts x ∧ gauge + k ≤ nestingLimit

/-- A reading of `s` after the left operand `left` is sound if it extends each derivation of
`left` to one of the formula that it yields. -/
def SoundAfter (n : Nat) (left : Formula) (s : List Token)
    (read : Nat → Except Failure (Formula × List Token)) : Prop :=
  ∀ gauge x rest, read gauge = .ok (x, rest) →
    ∀ ts₀ k₀, Derives n k₀ ts₀ left → gauge + k₀ ≤ nestingLimit →
      ∃ ts k, s = ts ++ rest ∧ Derives n k (ts₀ ++ ts) x ∧ gauge + k ≤ nestingLimit

/-- The reading of a unary expression is sound if it is for fewer tokens. A level of the limit
that is entered here is the one that the derivation of the whole adds. -/
theorem soundFor_unary {what : Expectation} {s : List Token}
    (ihunary : ∀ what' s', s'.length < s.length → SoundFor 0 s' (result (unary what' s')))
    (ihformula : ∀ s', s'.length < s.length →
      SoundFor 6 s' (result (expression 6 .formula s'))) :
    SoundFor 0 s (result (unary what s)) := by
  intro gauge x rest h
  rw [result_unary] at h
  split at h
  · rename_i hlimit
    split at h
    · cases h
      exact ⟨[_], 1, rfl, .constant _, hlimit⟩
    · split at h
      · cases h
        exact ⟨[_], 1, rfl, .variable (by simp), hlimit⟩
      · cases h
    · obtain ⟨⟨y, rest'⟩, hy, hdone⟩ := bind_eq_ok_iff.mp h
      cases hdone
      obtain ⟨ts, k, rfl, hts, hk⟩ := ihunary _ _ (by simp) _ _ _ hy
      exact ⟨_ :: ts, k + 1, rfl, .negation hts, by omega⟩
    · obtain ⟨⟨I, s₁⟩, hI, hrest⟩ := bind_eq_ok_iff.mp h
      obtain ⟨⟨y, rest'⟩, hy, hdone⟩ := bind_eq_ok_iff.mp hrest
      cases hdone
      have hlt := Nat.lt_succ_of_lt (length_lt_of_result hI)
      obtain ⟨is, his, rfl⟩ := result_interval_eq_ok_iff.mp hI
      obtain ⟨ts, k, rfl, hts, hk⟩ := ihunary _ s₁ hlt _ _ _ hy
      exact ⟨_ :: (is ++ ts), k + 1, by simp, .unary his hts, by omega⟩
    · obtain ⟨⟨y, s₁⟩, hy, hrest⟩ := bind_eq_ok_iff.mp h
      obtain ⟨⟨u, rest'⟩, hclose, hdone⟩ := bind_eq_ok_iff.mp hrest
      cases hdone
      obtain ⟨ts, k, rfl, hts, hk⟩ := ihformula _ (by simp) _ _ _ hy
      obtain rfl := result_expect_eq_ok_iff.mp hclose
      exact ⟨_ :: (ts ++ [.closeParen]), k + 1, by simp, .parens hts, by omega⟩
    · cases h
  · cases h

/-- The reading of an expression is sound if those of its first operand and of the chain after
it are. -/
theorem soundFor_expression_succ {n : Nat} {what : Expectation} {s : List Token}
    (ihfirst : SoundFor n s (result (expression n what s)))
    (ihchain : ∀ left s', s'.length < s.length →
      SoundAfter (n + 1) left s' (result (chain n left s'))) :
    SoundFor (n + 1) s (result (expression (n + 1) what s)) := by
  intro gauge x rest h
  rw [result_expression_succ] at h
  obtain ⟨⟨y, s₁⟩, hy, hrest⟩ := bind_eq_ok_iff.mp h
  have hlt := length_lt_of_result hy
  obtain ⟨ts₀, k₀, rfl, hts₀, hk₀⟩ := ihfirst _ _ _ hy
  obtain ⟨ts, k, rfl, hts, hk⟩ := ihchain _ _ hlt _ _ _ hrest _ _ (.single hts₀) hk₀
  exact ⟨ts₀ ++ ts, k, (List.append_assoc _ _ _).symm, hts, hk⟩

/-- The reading of a chain is sound if those of an operand and of the chain after it are: one
more link extends the derivation of what stands on the left. -/
theorem soundAfter_chain {n : Nat} {left : Formula} {s : List Token}
    (ihoperand : ∀ s', s'.length < s.length →
      SoundFor n s' (result (expression n .operand s')))
    (ihchain : ∀ left' s', s'.length < s.length →
      SoundAfter (n + 1) left' s' (result (chain n left' s'))) :
    SoundAfter (n + 1) left s (result (chain n left s)) := by
  intro gauge x rest h ts₀ k₀ hleft hk₀
  rw [result_chain] at h
  obtain ⟨next, hnext, hgo⟩ := bind_eq_ok_iff.mp h
  cases next with
  | none =>
      cases hgo
      exact ⟨[], k₀, rfl, by rwa [List.append_nil], hk₀⟩
  | some p =>
      obtain ⟨op, s₁⟩ := p
      obtain ⟨os, hos, rfl⟩ := infixResult_eq_some_iff.mp hnext
      obtain ⟨⟨r, s₂⟩, hr, hrest⟩ := bind_eq_ok_iff.mp hgo
      have hlt : s₁.length < (os ++ s₁).length := by
        have := hos.length_pos
        rw [List.length_append]
        omega
      have hlt' := length_lt_of_result hr
      obtain ⟨us, m, rfl, hus, hm⟩ := ihoperand _ hlt _ _ _ hr
      have hjoined := Derives.chain hleft hos hus (joins_apply op left r)
      obtain ⟨ts, k, rfl, hts, hk⟩ :=
        ihchain _ _ (Nat.lt_trans hlt' hlt) _ _ _ hrest _ _ hjoined (by omega)
      exact ⟨os ++ (us ++ ts), k, by simp, by simpa using hts, hk⟩

/-- **Soundness** of all readings of formulas, by induction along their recursion. -/
theorem soundFor_readings (s : List Token) :
    (∀ what, SoundFor 0 s (result (unary what s))) ∧
    (∀ n what, SoundFor n s (result (expression n what s))) ∧
    ∀ n left, SoundAfter (n + 1) left s (result (chain n left s)) := by
  refine reading_induction (U := fun what s => SoundFor 0 s (result (unary what s)))
    (E := fun n what s => SoundFor n s (result (expression n what s)))
    (C := fun n left s => SoundAfter (n + 1) left s (result (chain n left s)))
    ?_ ?_ ?_ ?_ s
  · intro what s ihunary ihformula
    exact soundFor_unary ihunary ihformula
  · intro what s ih gauge x rest h
    rw [result_expression_zero] at h
    exact ih gauge x rest h
  · intro n what s ihfirst ihchain
    exact soundFor_expression_succ ihfirst ihchain
  · intro n left s ihoperand ihchain
    exact soundAfter_chain ihoperand ihchain

/-- **Soundness** of the reading of expressions. -/
theorem derives_of_result_expression {n : Nat} {what : Expectation} {s rest : List Token}
    {gauge : Nat} {x : Formula} (h : result (expression n what s) gauge = .ok (x, rest)) :
    ∃ ts k, s = ts ++ rest ∧ Derives n k ts x ∧ gauge + k ≤ nestingLimit :=
  (soundFor_readings s).2.1 n what gauge x rest h

/-! ### What may follow an expression -/

/-- The level of an infix operator, if the token begins one. -/
def Token.infixLevel? : Token → Option Nat
  | .connective op => some (connectiveLevel op)
  | .binary _ => some temporalLevel
  | _ => none

/-- An operator that comes next has at least the given level. -/
def Stops (n : Nat) (s : List Token) : Prop :=
  ∀ t ∈ s.head?, ∀ level ∈ t.infixLevel?, n ≤ level

theorem Stops.mono {m n : Nat} {s : List Token} (h : Stops n s) (hmn : m ≤ n) : Stops m s :=
  fun t ht level hlevel => Nat.le_trans hmn (h t ht level hlevel)

theorem stops_zero (s : List Token) : Stops 0 s :=
  fun _ _ _ _ => Nat.zero_le _

theorem stops_nil (n : Nat) : Stops n [] := by
  intro t ht
  cases ht

/-- No operator comes next where a parenthesis is closed. -/
theorem stops_closeParen (n : Nat) (s : List Token) : Stops n (.closeParen :: s) := by
  intro t ht level hlevel
  cases ht
  cases hlevel

/-- An infix operator has its own level. -/
theorem DerivesInfix.stops {n : Nat} {ts : List Token} {op : InfixOperator}
    (h : DerivesInfix n ts op) (s : List Token) : Stops n (ts ++ s) := by
  intro t ht level hlevel
  cases h <;> cases ht <;> cases hlevel <;> exact Nat.le_refl _

/-- No operator of a level is read where only greater levels may come next. -/
theorem infixResult_of_stops {n : Nat} {s : List Token} (h : Stops (n + 1) s) (gauge : Nat) :
    infixResult n s gauge = .ok none := by
  rw [infixResult_eq]
  split
  · rename_i op rest
    have hlevel : n + 1 ≤ connectiveLevel op := h _ rfl _ rfl
    rw [if_neg (by omega)]
  · rename_i op rest
    have hlevel : n + 1 ≤ temporalLevel := h _ rfl _ rfl
    rw [if_neg (by omega)]
  · rfl

/-! ### Completeness -/

/-- How the reading of an expression of level `n` goes on when its tokens so far are read: a
unary expression is complete, and one of a greater level may be continued by a chain. -/
def resumed : Nat → Formula → List Token → Nat → Except Failure (Formula × List Token)
  | 0, x, rest, _ => .ok (x, rest)
  | n + 1, x, rest, gauge => result (chain n x rest) gauge

/-- It ends where only operators of greater levels may come next. -/
theorem resumed_of_stops {n : Nat} {rest : List Token} (h : Stops (n + 1) rest) (x : Formula)
    (gauge : Nat) : resumed n x rest gauge = .ok (x, rest) := by
  cases n with
  | zero => rfl
  | succ n =>
      rw [resumed, result_chain, infixResult_of_stops h]
      rfl

/-- **Completeness.** The reading of an expression takes the tokens that derive it, if their
nesting fits under the limit, and goes on from there. -/
theorem result_expression_of_derives {n k : Nat} {ts : List Token} {x : Formula}
    (h : Derives n k ts x) (what : Expectation) {rest : List Token} (hrest : Stops n rest)
    (gauge : Nat) (hk : gauge + k ≤ nestingLimit) :
    result (expression n what (ts ++ rest)) gauge = resumed n x rest gauge := by
  induction h generalizing what rest gauge with
  | constant value =>
      rw [result_expression_zero, result_unary, if_pos (by omega)]
      rfl
  | @«variable» id i hid =>
      have hlt : id.value < UInt32.size := hid ▸ i.toNat_lt_size
      have hi : UInt32.ofNatLT id.value hlt = i := by simp [hid]
      rw [result_expression_zero, result_unary, if_pos (by omega)]
      simp only [List.cons_append, List.nil_append, dif_pos hlt, hi]
      rfl
  | @negation k ts x _ ih =>
      have hx := ih .operand (stops_zero rest) (gauge + 1) (by omega)
      rw [result_expression_zero] at hx
      rw [result_expression_zero, result_unary, if_pos (by omega)]
      simp only [List.cons_append, hx]
      rfl
  | @unary k op is ts I x hI _ ih =>
      have hinterval := result_interval_of_derives hI (ts ++ rest) (gauge + 1)
      have hx := ih .operand (stops_zero rest) (gauge + 1) (by omega)
      rw [result_expression_zero] at hx
      rw [result_expression_zero, result_unary, if_pos (by omega)]
      simp only [List.cons_append, List.append_assoc, hinterval, Except.bind, hx]
      rfl
  | @parens k ts x _ ih =>
      have hx := ih .formula (stops_closeParen 6 rest) (gauge + 1) (by omega)
      rw [resumed_of_stops (stops_closeParen 7 rest)] at hx
      have hclose : result (expect .closeParen .closeParen (.closeParen :: rest)) (gauge + 1) =
          .ok ((), rest) := result_expect_eq_ok_iff.mpr rfl
      rw [result_expression_zero, result_unary, if_pos (by omega)]
      simp only [List.cons_append, List.append_assoc, List.nil_append, loosestLevel, hx,
        Except.bind, hclose]
      rfl
  | @single n k ts x _ ih =>
      have hx := ih what (hrest.mono (Nat.le_succ n)) gauge hk
      rw [resumed_of_stops hrest] at hx
      rw [result_expression_succ, hx]
      rfl
  | @chain n k m ts os us op l r x _ hop _ hx ihl ihr =>
      obtain rfl := joins_iff.mp hx
      have hl := ihl what (hop.stops (us ++ rest)) gauge (by omega)
      have hr := ihr .operand (hrest.mono (Nat.le_succ n)) gauge (by omega)
      rw [resumed_of_stops hrest] at hr
      have hnext := infixResult_of_derives hop (us ++ rest) gauge
      rw [List.append_assoc, List.append_assoc, hl, resumed, result_chain, hnext]
      simp only [Except.bind, hr]
      rfl

/-! ### Tokens nested too deeply -/

/-- A unary expression is refused as too deep at the limit, and below it if what it is made of
is refused one level further down. -/
theorem result_expression_zero_of_too_deep {what : Expectation} {s : List Token} {gauge : Nat}
    (h : gauge < nestingLimit → ∃ s', result (unary what s) gauge = .error ⟨s', .tooDeep⟩) :
    ∃ s', result (expression 0 what s) gauge = .error ⟨s', .tooDeep⟩ := by
  rw [result_expression_zero]
  by_cases hlimit : gauge < nestingLimit
  · exact h hlimit
  · exact ⟨s, by rw [result_unary, if_neg hlimit]⟩

/-- **Refusal.** Where the nesting of a derivation does not fit under the limit, the reading
of its tokens fails for that reason. In a chain, what stands before the operand that is too
deep is read by completeness. -/
theorem result_expression_of_too_deep {n k : Nat} {ts : List Token} {x : Formula}
    (h : Derives n k ts x) (what : Expectation) {rest : List Token} (hrest : Stops n rest)
    (gauge : Nat) (hk : nestingLimit < gauge + k) :
    ∃ s, result (expression n what (ts ++ rest)) gauge = .error ⟨s, .tooDeep⟩ := by
  induction h generalizing what rest gauge with
  | constant value => exact result_expression_zero_of_too_deep fun hlimit => by omega
  | «variable» _ => exact result_expression_zero_of_too_deep fun hlimit => by omega
  | @negation k ts x _ ih =>
      refine result_expression_zero_of_too_deep fun hlimit => ?_
      obtain ⟨s, hs⟩ := ih .operand (stops_zero rest) (gauge + 1) (by omega)
      rw [result_expression_zero] at hs
      rw [result_unary, if_pos hlimit]
      simp only [List.cons_append, hs]
      exact ⟨s, rfl⟩
  | @unary k op is ts I x hI _ ih =>
      refine result_expression_zero_of_too_deep fun hlimit => ?_
      have hinterval := result_interval_of_derives hI (ts ++ rest) (gauge + 1)
      obtain ⟨s, hs⟩ := ih .operand (stops_zero rest) (gauge + 1) (by omega)
      rw [result_expression_zero] at hs
      rw [result_unary, if_pos hlimit]
      simp only [List.cons_append, List.append_assoc, hinterval, Except.bind, hs]
      exact ⟨s, rfl⟩
  | @parens k ts x _ ih =>
      refine result_expression_zero_of_too_deep fun hlimit => ?_
      obtain ⟨s, hs⟩ := ih .formula (stops_closeParen 6 rest) (gauge + 1) (by omega)
      rw [result_unary, if_pos hlimit]
      simp only [List.cons_append, List.append_assoc, List.nil_append, loosestLevel, hs]
      exact ⟨s, rfl⟩
  | @single n k ts x _ ih =>
      obtain ⟨s, hs⟩ := ih what (hrest.mono (Nat.le_succ n)) gauge hk
      rw [result_expression_succ, hs]
      exact ⟨s, rfl⟩
  | @chain n k m ts os us op l r x hl hop _ _ ihl ihr =>
      rw [List.append_assoc, List.append_assoc]
      by_cases hleft : nestingLimit < gauge + k
      · exact ihl what (hop.stops (us ++ rest)) gauge hleft
      · have hread := result_expression_of_derives hl what (hop.stops (us ++ rest)) gauge
          (Nat.le_of_not_lt hleft)
        have hnext := infixResult_of_derives hop (us ++ rest) gauge
        obtain ⟨s, hs⟩ := ihr .operand (hrest.mono (Nat.le_succ n)) gauge (by omega)
        rw [hread, resumed, result_chain, hnext]
        simp only [Except.bind, hs]
        exact ⟨s, rfl⟩

/-! ### Whole token sequences -/

theorem outcome_formula (s : List Token) (gauge : Nat) :
    outcome (formula s) gauge =
      (result (expression loosestLevel .formula s) gauge).bind fun f =>
        match f.2 with
        | [] => .ok f.1
        | rest => .error ⟨rest, .trailing⟩ := by
  rw [formula, outcome_bind (balanced_expression _ _ _), result]
  cases outcome (expression loosestLevel .formula s) gauge with
  | error e => rfl
  | ok f =>
      obtain ⟨x, rest, hlt⟩ := f
      cases rest <;> rfl

/-- **Token sequences are read as the grammar derives them**, as far as the limit allows. -/
theorem outcome_formula_eq_ok_iff {s : List Token} {f : Formula} {gauge : Nat} :
    outcome (formula s) gauge = .ok f ↔ ∃ k, Derives 6 k s f ∧ gauge + k ≤ nestingLimit := by
  rw [outcome_formula, bind_eq_ok_iff]
  constructor
  · rintro ⟨⟨x, rest⟩, hx, hdone⟩
    cases rest with
    | nil =>
        cases hdone
        obtain ⟨ts, k, rfl, hts, hk⟩ := derives_of_result_expression hx
        exact ⟨k, by rwa [List.append_nil], hk⟩
    | cons t rest => cases hdone
  · rintro ⟨k, hs, hk⟩
    have hread := result_expression_of_derives hs .formula (stops_nil 6) gauge hk
    rw [List.append_nil, resumed_of_stops (stops_nil 7)] at hread
    exact ⟨_, hread, rfl⟩

/-- Token sequences that are nested beyond the limit are refused as too deep. -/
theorem outcome_formula_of_too_deep {s : List Token} {f : Formula} {k gauge : Nat}
    (h : Derives 6 k s f) (hk : nestingLimit < gauge + k) :
    ∃ rest, outcome (formula s) gauge = .error ⟨rest, .tooDeep⟩ := by
  obtain ⟨rest, hrest⟩ := result_expression_of_too_deep h .formula (stops_nil 6) gauge hk
  rw [List.append_nil] at hrest
  refine ⟨rest, ?_⟩
  rw [outcome_formula, loosestLevel, hrest]
  rfl

end MissionTime.Syntax
