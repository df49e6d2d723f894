import MissionTime.Proofs.Awaiting

/-!
# Where Readings Stop

A reading that fails has come to a place and has a reason to refuse what comes there: every
failure is one at a place. The proof is an induction along the recursion of the readings. In a
chain it carries the derivation of what stands on the left.

Where a parenthesis is to be closed, the reading of the expression in it has ended, so what
comes is no infix operator either: what is left after an expression begins with no operator of
its level or a smaller one.

## Main definitions

* `Stopped`: the failures at a place.

## Main results

* `awaits_of_result_interval`: the reading of an interval stops at a place of it.
* `stops_of_result_expression`: what is left after an expression.
* `stopped_of_result_expression`: every failure happens at a place.
-/

namespace MissionTime.Syntax

open Text

variable {α β : Type}

/-! ### Failures of single tokens and intervals -/

/-- A computation that can fail fails if one of its parts does. -/
theorem bind_eq_error_iff {ε : Type} {x : Except ε α} {f : α → Except ε β} {e : ε} :
    x.bind f = .error e ↔ x = .error e ∨ ∃ a, x = .ok a ∧ f a = .error e := by
  cases x with
  | error e' => simp [Except.bind]
  | ok a => simp [Except.bind]

/-- A given token is missed where it does not come. -/
theorem result_expect_eq_error {token : Token} {what : Expectation} {s : List Token}
    {gauge : Nat} {e : Failure} (h : result (expect token what s) gauge = .error e) :
    e = ⟨s, .expected what⟩ ∧ ∀ t ∈ s.head?, t ≠ token := by
  rw [result_expect] at h
  cases s with
  | nil =>
      cases h
      exact ⟨rfl, by simp⟩
  | cons t s =>
      by_cases ht : t = token
      · simp [ht] at h
      · simp only [ht, ↓reduceIte, Except.error.injEq] at h
        exact ⟨h.symm, by simpa using ht⟩

/-- A bound is missed where no number comes, or one that does not fit its word. -/
theorem refuses_of_result_bound {what : Expectation} (hwhat : what = .lowerBound ∨ what = .upperBound)
    {s : List Token} {gauge : Nat} {e : Failure}
    (h : result (bound what s) gauge = .error e) : e.rest = s ∧ Refuses what s e.cause := by
  have hadmits (t : Token) : what.admits t = t.isNumber := by
    obtain rfl | rfl := hwhat <;> rfl
  rw [result_bound] at h
  split at h
  · split at h
    · cases h
    · rename_i hn
      cases h
      exact ⟨rfl, .integerTooLarge hwhat hn⟩
  · rename_i hs
    cases h
    refine ⟨rfl, .expected fun t ht => ?_⟩
    obtain ⟨rest, rfl⟩ := List.head?_eq_some_iff.mp ht
    rw [hadmits]
    cases t with
    | number n => exact absurd rfl (hs n rest)
    | _ => rfl

/-- **The reading of an interval stops at a place of it.** -/
theorem awaits_of_result_interval {s : List Token} {gauge : Nat} {e : Failure}
    (h : result (interval s) gauge = .error e) :
    ∃ ts w, s = ts ++ e.rest ∧ AwaitsInterval ts w ∧ Refuses w e.rest e.cause := by
  have refuses_token {token t : Token} (h : t ≠ token) : (t == token) = false := by simpa using h
  rw [result_interval, bind_eq_error_iff] at h
  obtain hfail | ⟨⟨_, s₁⟩, hopen, h⟩ := h
  · obtain ⟨rfl, hne⟩ := result_expect_eq_error hfail
    exact ⟨[], _, rfl, .openBracket, .expected fun t ht => refuses_token (hne t ht)⟩
  obtain rfl := result_expect_eq_ok_iff.mp hopen
  rw [bind_eq_error_iff] at h
  obtain hfail | ⟨⟨a, s₂⟩, hlower, h⟩ := h
  · obtain ⟨hrest, hrefuses⟩ := refuses_of_result_bound (Or.inl rfl) hfail
    exact ⟨[.openBracket], _, by rw [hrest]; rfl, .lowerBound, hrest ▸ hrefuses⟩
  obtain ⟨m, hm, rfl⟩ := result_bound_eq_ok_iff.mp hlower
  have hmlt : m.value < UInt64.size := hm ▸ a.toNat_lt_size
  rw [bind_eq_error_iff] at h
  obtain hfail | ⟨⟨_, s₃⟩, hcomma, h⟩ := h
  · obtain ⟨rfl, hne⟩ := result_expect_eq_error hfail
    exact ⟨[_, _], _, rfl, .comma hmlt, .expected fun t ht => refuses_token (hne t ht)⟩
  obtain rfl := result_expect_eq_ok_iff.mp hcomma
  rw [bind_eq_error_iff] at h
  obtain hfail | ⟨⟨b, s₄⟩, hupper, h⟩ := h
  · obtain ⟨hrest, hrefuses⟩ := refuses_of_result_bound (Or.inr rfl) hfail
    exact ⟨[_, _, _], _, by rw [hrest]; rfl, .upperBound hmlt, hrest ▸ hrefuses⟩
  obtain ⟨n, hn, rfl⟩ := result_bound_eq_ok_iff.mp hupper
  have hnlt : n.value < UInt64.size := hn ▸ b.toNat_lt_size
  rw [bind_eq_error_iff] at h
  obtain hfail | ⟨⟨_, s₅⟩, hclose, h⟩ := h
  · obtain ⟨rfl, hne⟩ := result_expect_eq_error hfail
    exact ⟨[_, _, _, _], _, rfl, .closeBracket hmlt hnlt,
      .expected fun t ht => refuses_token (hne t ht)⟩
  obtain rfl := result_expect_eq_ok_iff.mp hclose
  by_cases hab : a ≤ b
  · simp [Interval.of, hab] at h
  · simp only [Interval.of, dif_neg hab, Except.error.injEq] at h
    obtain rfl := h
    exact ⟨[], _, rfl, .openBracket, .bounds hm hn hab⟩

/-- The reading of an infix operator stops only in the interval of a temporal one. -/
theorem awaits_of_infixResult {n : Nat} {s : List Token} {gauge : Nat} {e : Failure}
    (h : infixResult n s gauge = .error e) :
    ∃ op is w, s = .binary op :: (is ++ e.rest) ∧ n = 1 ∧ AwaitsInterval is w ∧
      Refuses w e.rest e.cause := by
  rw [infixResult_eq] at h
  split at h
  · split at h <;> cases h
  · rename_i op s
    split at h
    · rename_i hlevel
      cases hI : result (interval s) gauge with
      | ok I =>
          rw [hI] at h
          cases h
      | error e' =>
          rw [hI] at h
          cases h
          obtain ⟨is, w, hs, his, hrefuses⟩ := awaits_of_result_interval hI
          exact ⟨op, is, w, by rw [← hs], hlevel.symm, his, hrefuses⟩
    · cases h
  · cases h

/-! ### What is left after an expression -/

theorem Token.infixLevel?_bounds {t : Token} {level : Nat} (h : t.infixLevel? = some level) :
    1 ≤ level ∧ level ≤ 6 := by
  cases t with
  | connective op =>
      cases h
      exact ⟨by cases op <;> decide, connectiveLevel_le op⟩
  | binary op =>
      cases h
      decide
  | _ => cases h

/-- Every operator has at least the first level. -/
theorem stops_one (s : List Token) : Stops 1 s :=
  fun _ _ _ hlevel => (Token.infixLevel?_bounds hlevel).1

/-- No operator has more than the loosest level. -/
theorem stops_seven_iff {s : List Token} : Stops 7 s ↔ ∀ t ∈ s.head?, t.infixLevel? = none := by
  constructor
  · intro h t ht
    cases hlevel : t.infixLevel? with
    | none => rfl
    | some level =>
        have hle := (Token.infixLevel?_bounds hlevel).2
        have hge := h t ht level hlevel
        omega
  · intro h t ht level hlevel
    rw [h t ht] at hlevel
    cases hlevel

/-- Where no operator of a level is read, the next one has a greater level. -/
theorem Stops.succ {n : Nat} {s : List Token} (h : Stops n s) {gauge : Nat}
    (hnone : infixResult n s gauge = .ok none) : Stops (n + 1) s := by
  intro t ht level hlevel
  refine Nat.lt_of_le_of_ne (h t ht level hlevel) ?_
  rintro rfl
  obtain ⟨rest, rfl⟩ := List.head?_eq_some_iff.mp ht
  rw [infixResult_eq] at hnone
  cases t with
  | connective op =>
      cases hlevel
      simp at hnone
  | binary op =>
      cases hlevel
      simp only [↓reduceIte] at hnone
      cases hI : result (interval rest) gauge with
      | error e =>
          rw [hI] at hnone
          cases hnone
      | ok I =>
          rw [hI] at hnone
          cases hnone
  | _ => cases hlevel

/-- **What is left after an expression** begins with no operator of its level or a smaller
one. -/
theorem stops_of_result_expression {n : Nat} {what : Expectation} {s rest : List Token}
    {gauge : Nat} {x : Formula} (h : result (expression n what s) gauge = .ok (x, rest)) :
    Stops (n + 1) rest := by
  refine (reading_induction (U := fun _ _ => True)
    (E := fun n what s => ∀ gauge x rest, result (expression n what s) gauge = .ok (x, rest) →
      Stops (n + 1) rest)
    (C := fun n left s => Stops (n + 1) s → ∀ gauge x rest,
      result (chain n left s) gauge = .ok (x, rest) → Stops (n + 2) rest)
    ?_ ?_ ?_ ?_ s).2.1 n what gauge x rest h
  · exact fun _ _ _ _ => trivial
  · intro what s _ gauge x rest _
    exact stops_one rest
  · intro n what s ihfirst ihchain gauge x rest h
    rw [result_expression_succ] at h
    obtain ⟨⟨y, s₁⟩, hy, hrest⟩ := bind_eq_ok_iff.mp h
    exact ihchain y s₁ (length_lt_of_result hy) (ihfirst gauge y s₁ hy) gauge x rest hrest
  · intro n left s ihoperand ihchain hs gauge x rest h
    rw [result_chain] at h
    obtain ⟨next, hnext, hgo⟩ := bind_eq_ok_iff.mp h
    cases next with
    | none =>
        cases hgo
        exact hs.succ hnext
    | some p =>
        obtain ⟨op, s₁⟩ := p
        obtain ⟨os, hos, rfl⟩ := infixResult_eq_some_iff.mp hnext
        obtain ⟨⟨r, s₂⟩, hr, hrest⟩ := bind_eq_ok_iff.mp hgo
        have hlt : s₁.length < (os ++ s₁).length := by
          have := hos.length_pos
          rw [List.length_append]
          omega
        exact ihchain _ s₂ (Nat.lt_trans (length_lt_of_result hr) hlt)
          (ihoperand s₁ hlt gauge r s₂ hr) gauge x rest hrest

/-! ### Every failure happens at a place -/

/-- A failure at a place where `w` is needed and that takes `k` levels of nesting. Either the
levels are there and what comes is refused, or they are not. -/
def StoppedBy (gauge k : Nat) (w : Expectation) (e : Failure) : Prop :=
  gauge + k ≤ nestingLimit ∧ Refuses w e.rest e.cause ∨
    nestingLimit < gauge + k ∧ e.cause = .tooDeep

/-- A level that is entered is one of those that the place takes. -/
theorem StoppedBy.level {gauge k : Nat} {w : Expectation} {e : Failure}
    (h : StoppedBy (gauge + 1) k w e) : StoppedBy gauge (k + 1) w e := by
  rwa [StoppedBy, Nat.add_right_comm] at h

/-- What has been read on the left took no more levels than there are. -/
theorem StoppedBy.max_left {gauge k m : Nat} {w : Expectation} {e : Failure}
    (h : StoppedBy gauge m w e) (hk : gauge + k ≤ nestingLimit) :
    StoppedBy gauge (max k m) w e := by
  obtain ⟨hm, hrefuses⟩ | ⟨hm, hdeep⟩ := h
  · exact Or.inl ⟨by omega, hrefuses⟩
  · exact Or.inr ⟨by omega, hdeep⟩

/-- **Failures at a place.** Behind the tokens `before`, the reading of `s` as an expression of
level `n` has stopped at a place. -/
def Stopped (what : Expectation) (n : Nat) (before s : List Token) (gauge : Nat)
    (e : Failure) : Prop :=
  ∃ ts k w, s = ts ++ e.rest ∧ Awaits what n k (before ++ ts) w ∧ StoppedBy gauge k w e

/-- The reading of a unary expression stops at a place if that of fewer tokens does. -/
theorem stopped_unary {what : Expectation} (hwhat : what.NeedsUnary) {s : List Token}
    (ihunary : ∀ s', s'.length < s.length → ∀ gauge e,
      result (unary .operand s') gauge = .error e → Stopped .operand 0 [] s' gauge e)
    (ihformula : ∀ s', s'.length < s.length → ∀ gauge e,
      result (expression 6 .formula s') gauge = .error e → Stopped .formula 6 [] s' gauge e)
    {gauge : Nat} {e : Failure} (h : result (unary what s) gauge = .error e) :
    Stopped what 0 [] s gauge e := by
  rw [result_unary] at h
  by_cases hlimit : gauge < nestingLimit
  swap
  · rw [if_neg hlimit] at h
    cases h
    exact ⟨[], 1, what, rfl, .start hwhat, Or.inr ⟨by omega, rfl⟩⟩
  rw [if_pos hlimit] at h
  -- Where no unary expression begins, that is the reason.
  have refused (hfail : e = ⟨s, .expected what⟩) (hs : ∀ t ∈ s.head?, t.beginsUnary = false) :
      Stopped what 0 [] s gauge e := by
    subst hfail
    refine ⟨[], 1, what, rfl, .start hwhat, Or.inl ⟨hlimit, .expected fun t ht => ?_⟩⟩
    exact (hwhat.admits_eq t).trans (hs t ht)
  cases s with
  | nil => exact refused (Except.error.inj h).symm (by simp)
  | cons t s =>
      cases t with
      | constant value => cases h
      | «variable» id =>
          by_cases hid : id.value < UInt32.size
          · simp [hid] at h
          · simp only [hid, ↓reduceDIte, Except.error.injEq] at h
            obtain rfl := h
            exact ⟨[], 1, what, rfl, .start hwhat,
              Or.inl ⟨hlimit, .variableTooLarge hwhat hid⟩⟩
      | negation =>
          obtain hfail | ⟨x, -, hdone⟩ := bind_eq_error_iff.mp h
          · obtain ⟨ts, k, w, rfl, hts, hstop⟩ := ihunary _ (by simp) _ _ hfail
            exact ⟨_ :: ts, k + 1, w, rfl, .negation hts, hstop.level⟩
          · cases hdone
      | unary op =>
          obtain hfail | ⟨⟨I, s₁⟩, hI, hrest⟩ := bind_eq_error_iff.mp h
          · obtain ⟨is, w, rfl, his, hrefuses⟩ := awaits_of_result_interval hfail
            exact ⟨_ :: is, 1, w, rfl, .bounds his, Or.inl ⟨hlimit, hrefuses⟩⟩
          have hlt := Nat.lt_succ_of_lt (length_lt_of_result hI)
          obtain ⟨is, his, rfl⟩ := result_interval_eq_ok_iff.mp hI
          obtain hfail | ⟨x, -, hdone⟩ := bind_eq_error_iff.mp hrest
          · obtain ⟨ts, k, w, rfl, hts, hstop⟩ := ihunary s₁ hlt _ _ hfail
            exact ⟨.unary op :: (is ++ ts), k + 1, w, by simp, .unary his hts, hstop.level⟩
          · cases hdone
      | openParen =>
          obtain hfail | ⟨⟨x, s₁⟩, hx, hrest⟩ := bind_eq_error_iff.mp h
          · obtain ⟨ts, k, w, rfl, hts, hstop⟩ := ihformula _ (by simp) _ _ hfail
            exact ⟨_ :: ts, k + 1, w, rfl, .parens hts, hstop.level⟩
          obtain ⟨ts, k, rfl, hts, hk⟩ := derives_of_result_expression hx
          have hoperator := stops_seven_iff.mp (stops_of_result_expression hx)
          obtain hfail | ⟨x, -, hdone⟩ := bind_eq_error_iff.mp hrest
          · obtain ⟨rfl, hne⟩ := result_expect_eq_error hfail
            refine ⟨_ :: ts, k + 1, _, rfl, .closing hts,
              Or.inl ⟨by omega, .expected fun t ht => ?_⟩⟩
            simp [Expectation.admits, hne t ht, hoperator t ht]
          · cases hdone
      | _ => exact refused (Except.error.inj h).symm (by simp [Token.beginsUnary])

/-- The reading of an expression stops at a place if those of its first operand and of the chain
after it do. -/
theorem stopped_expression_succ {n : Nat} {what : Expectation} {s : List Token}
    (ihfirst : ∀ gauge e, result (expression n what s) gauge = .error e →
      Stopped what n [] s gauge e)
    (ihchain : ∀ left s', s'.length < s.length → ∀ gauge e,
      result (chain n left s') gauge = .error e →
        ∀ ts₀ k₀, Derives (n + 1) k₀ ts₀ left → gauge + k₀ ≤ nestingLimit →
          Stopped what (n + 1) ts₀ s' gauge e)
    {gauge : Nat} {e : Failure} (h : result (expression (n + 1) what s) gauge = .error e) :
    Stopped what (n + 1) [] s gauge e := by
  rw [result_expression_succ] at h
  obtain hfail | ⟨⟨y, s₁⟩, hy, hrest⟩ := bind_eq_error_iff.mp h
  · obtain ⟨ts, k, w, hs, hts, hstop⟩ := ihfirst _ _ hfail
    exact ⟨ts, k, w, hs, .first hts, hstop⟩
  · have hlt := length_lt_of_result hy
    obtain ⟨ts₀, k₀, rfl, hts₀, hk₀⟩ := derives_of_result_expression hy
    obtain ⟨ts, k, w, rfl, hts, hstop⟩ := ihchain _ _ hlt _ _ hrest _ _ (.single hts₀) hk₀
    exact ⟨ts₀ ++ ts, k, w, (List.append_assoc _ _ _).symm, hts, hstop⟩

/-- The reading of a chain stops at a place behind its left operand if those of an operand and
of the chain after it do. -/
theorem stopped_chain {n : Nat} {what : Expectation} {left : Formula} {s : List Token}
    (ihoperand : ∀ s', s'.length < s.length → ∀ gauge e,
      result (expression n .operand s') gauge = .error e → Stopped .operand n [] s' gauge e)
    (ihchain : ∀ left' s', s'.length < s.length → ∀ gauge e,
      result (chain n left' s') gauge = .error e →
        ∀ ts₀ k₀, Derives (n + 1) k₀ ts₀ left' → gauge + k₀ ≤ nestingLimit →
          Stopped what (n + 1) ts₀ s' gauge e)
    {gauge : Nat} {e : Failure} (h : result (chain n left s) gauge = .error e)
    {ts₀ : List Token} {k₀ : Nat} (hleft : Derives (n + 1) k₀ ts₀ left)
    (hk₀ : gauge + k₀ ≤ nestingLimit) : Stopped what (n + 1) ts₀ s gauge e := by
  rw [result_chain] at h
  obtain hfail | ⟨next, hnext, hgo⟩ := bind_eq_error_iff.mp h
  · obtain ⟨op, is, w, rfl, hn, hawaits, hrefuses⟩ := awaits_of_infixResult hfail
    obtain rfl : n = 0 := by omega
    exact ⟨_ :: is, k₀, w, rfl, .operatorBounds hleft hawaits, Or.inl ⟨hk₀, hrefuses⟩⟩
  cases next with
  | none => cases hgo
  | some p =>
      obtain ⟨op, s₁⟩ := p
      obtain ⟨os, hos, rfl⟩ := infixResult_eq_some_iff.mp hnext
      have hlt : s₁.length < (os ++ s₁).length := by
        have := hos.length_pos
        rw [List.length_append]
        omega
      obtain hfail | ⟨⟨r, s₂⟩, hr, hrest⟩ := bind_eq_error_iff.mp hgo
      · obtain ⟨us, m, w, rfl, hus, hstop⟩ := ihoperand _ hlt _ _ hfail
        exact ⟨os ++ us, max k₀ m, w, (List.append_assoc _ _ _).symm, .operand hleft hos hus,
          hstop.max_left hk₀⟩
      · have hlt' := length_lt_of_result hr
        obtain ⟨us, m, rfl, hus, hm⟩ := derives_of_result_expression hr
        have hjoined := Derives.chain hleft hos hus (joins_apply op left r)
        obtain ⟨ts, k, w, rfl, hts, hstop⟩ :=
          ihchain _ _ (Nat.lt_trans hlt' hlt) _ _ hrest _ _ hjoined (by omega)
        exact ⟨os ++ (us ++ ts), k, w, by simp, by simpa using hts, hstop⟩

/-- **Every failure happens at a place**, by induction along the recursion of the readings. -/
theorem stopped_of_result_expression {n : Nat} {what : Expectation} (hwhat : what.NeedsUnary)
    {s : List Token} {gauge : Nat} {e : Failure}
    (h : result (expression n what s) gauge = .error e) : Stopped what n [] s gauge e := by
  refine (reading_induction
    (U := fun what s => what.NeedsUnary → ∀ gauge e,
      result (unary what s) gauge = .error e → Stopped what 0 [] s gauge e)
    (E := fun n what s => what.NeedsUnary → ∀ gauge e,
      result (expression n what s) gauge = .error e → Stopped what n [] s gauge e)
    (C := fun n left s => ∀ gauge e, result (chain n left s) gauge = .error e →
      ∀ what ts₀ k₀, Derives (n + 1) k₀ ts₀ left → gauge + k₀ ≤ nestingLimit →
        Stopped what (n + 1) ts₀ s gauge e)
    ?_ ?_ ?_ ?_ s).2.1 n what hwhat gauge e h
  · intro what s ihunary ihformula hwhat gauge e h
    exact stopped_unary hwhat (fun s' hs' => ihunary .operand s' hs' (Or.inr rfl))
      (fun s' hs' => ihformula s' hs' (Or.inl rfl)) h
  · intro what s ih hwhat gauge e h
    rw [result_expression_zero] at h
    exact ih hwhat gauge e h
  · intro n what s ihfirst ihchain hwhat gauge e h
    exact stopped_expression_succ (ihfirst hwhat)
      (fun left s' hs' gauge e h => ihchain left s' hs' gauge e h what) h
  · intro n left s ihoperand ihchain gauge e h what ts₀ k₀ hleft hk₀
    exact stopped_chain (fun s' hs' => ihoperand s' hs' (Or.inr rfl))
      (fun left' s' hs' gauge e h => ihchain left' s' hs' gauge e h what) h hleft hk₀

end MissionTime.Syntax
