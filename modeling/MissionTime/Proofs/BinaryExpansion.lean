import Mathlib.Data.List.Infix
import Mathlib.Data.String.Basic
import Mathlib.Tactic.Ring
import MissionTime.Step

/-!
# Binary Expansions in Order

The step of a number holds its last binary digits, as many as the step is wide, and reading them
from the most significant one gives the remainder of the number by a power of two. Steps are in
the order of their texts in a dictionary. Among steps of one width this is the order of the
numbers that they denote: what decides in both is the first digit that differs, because all
digits after it together count less than it does.

## Main definitions

* `Step.value`: the number that bits denote, the most significant one first.

## Main results

* `Step.value_bits_ofNat`: the step of a number denotes its remainder by a power of two.
* `Step.compareBits_eq_compare_value`: bits in the order of the numbers that they denote.
* `Step.compareBits_eq_lt_iff`: bits in the order of a dictionary.
* `Step.compare_eq_compare_text`: steps in the order of their texts.
* `Step.ofNat_expansion_ordered`: binary expansions and the order of steps.
-/

namespace MissionTime.Step

/-! ### The number of bits -/

/-- The number that bits **denote**, read from the most significant one on. -/
def value (bits : List Bool) : Nat :=
  bits.foldl (fun number bit => 2 * number + bit.toNat) 0

/-- A number to which bits are read further is multiplied by two for each of them. -/
theorem foldl_bits (number : Nat) (bits : List Bool) :
    bits.foldl (fun number bit => 2 * number + bit.toNat) number =
      number * 2 ^ bits.length + value bits := by
  induction bits generalizing number with
  | nil => simp [value]
  | cons bit bits ih =>
      rw [value, List.foldl_cons, List.foldl_cons, ih, ih (2 * 0 + bit.toNat), List.length_cons,
        Nat.pow_succ]
      ring

/-- The first bit counts a power of two. -/
theorem value_cons (bit : Bool) (bits : List Bool) :
    value (bit :: bits) = bit.toNat * 2 ^ bits.length + value bits := by
  rw [value, List.foldl_cons, foldl_bits, Nat.mul_zero, Nat.zero_add]

/-- All bits together count less than one more bit would. -/
theorem value_lt (bits : List Bool) : value bits < 2 ^ bits.length := by
  induction bits with
  | nil => exact Nat.one_pos
  | cons bit bits ih =>
      have hbit : bit.toNat * 2 ^ bits.length ≤ 1 * 2 ^ bits.length :=
        Nat.mul_le_mul_right _ bit.toNat_le
      rw [value_cons, List.length_cons, Nat.pow_succ]
      omega

/-! ### The digits of a number -/

/-- A number of 64 bits has no other digits than those that are looked at. -/
theorem bits_ofNat {number : Nat} (h : number < 2 ^ 64) (width : Nat) :
    (ofNat number width).bits = (List.range width).reverse.map number.testBit := by
  refine List.map_congr_left fun shift _ => ?_
  by_cases hshift : shift < 64
  · rw [decide_eq_true hshift, Bool.true_and, Nat.and_one_is_mod, Nat.shiftRight_eq_div_pow,
      Nat.testBit_eq_decide_div_mod_eq]
    rfl
  · have hbeyond : number < 2 ^ shift :=
      h.trans_le (Nat.pow_le_pow_right Nat.two_pos (Nat.le_of_not_lt hshift))
    rw [decide_eq_false hshift, Bool.false_and, Nat.testBit_lt_two_pow hbeyond]

theorem bits_ofNat_succ {number : Nat} (h : number < 2 ^ 64) (width : Nat) :
    (ofNat number (width + 1)).bits = number.testBit width :: (ofNat number width).bits := by
  rw [bits_ofNat h, bits_ofNat h, List.range_succ, List.reverse_concat, List.map_cons]

theorem length_bits_ofNat (number width : Nat) : (ofNat number width).bits.length = width := by
  rw [ofNat, List.length_map, List.length_reverse, List.length_range]

/-- **The step of a number denotes its remainder by a power of two.** Induction on the width: one
more digit is put in front. -/
theorem value_bits_ofNat {number : Nat} (h : number < 2 ^ 64) (width : Nat) :
    value (ofNat number width).bits = number % 2 ^ width := by
  induction width with
  | zero => exact (Nat.mod_one number).symm
  | succ width ih =>
      rw [bits_ofNat_succ h, value_cons, length_bits_ofNat, ih, Nat.mod_pow_succ,
        Nat.toNat_testBit, Nat.mul_comm, Nat.add_comm]

/-! ### The order of numbers -/

theorem compare_add_left (k m n : Nat) : compare (k + m) (k + n) = compare m n := by
  simp only [Nat.compare_eq_ite_lt, Nat.add_lt_add_iff_left]

/-- **Bits are in the order of the numbers that they denote**, if there are equally many of them.
Induction on the bits: the first one that differs decides, as the bits after it count less. -/
theorem compareBits_eq_compare_value {as bs : List Bool} (h : as.length = bs.length) :
    compareBits as bs = compare (value as) (value bs) := by
  induction as generalizing bs with
  | nil =>
      cases bs with
      | nil => rfl
      | cons b bs => cases h
  | cons a as ih =>
      cases bs with
      | nil => cases h
      | cons b bs =>
          have hlength : as.length = bs.length := Nat.succ.inj h
          have has := value_lt as
          have hbs := value_lt bs
          rw [hlength] at has
          rw [compareBits, ih hlength, value_cons, value_cons, hlength]
          cases a <;> cases b
          case false.true => exact (Nat.compare_eq_lt.mpr (by simp; omega)).symm
          case true.false => exact (Nat.compare_eq_gt.mpr (by simp; omega)).symm
          case false.false => exact (compare_add_left _ _ _).symm
          case true.true => exact (compare_add_left _ _ _).symm

/-! ### The order of texts -/

/-- What two sequences of bits begin with alike does not matter. -/
theorem compareBits_append_left (common as bs : List Bool) :
    compareBits (common ++ as) (common ++ bs) = compareBits as bs := by
  induction common with
  | nil => rfl
  | cons bit common ih =>
      rw [List.cons_append, List.cons_append, compareBits, ih, Std.ReflOrd.compare_self,
        Ordering.eq_then]

/-- **Bits are in the order of a dictionary.** They come before all that they are the beginning of,
and otherwise the first difference decides. -/
theorem compareBits_eq_lt_iff (as bs : List Bool) :
    compareBits as bs = .lt ↔ as <+: bs ∧ as ≠ bs ∨
      ∃ common as' bs', as = common ++ false :: as' ∧ bs = common ++ true :: bs' := by
  constructor
  · intro h
    fun_induction compareBits as bs with
    | case1 => cases h
    | case2 b bs => exact .inl ⟨List.nil_prefix, List.cons_ne_nil b bs |>.symm⟩
    | case3 a as => cases h
    | case4 a as b bs ih =>
        obtain hfirst | ⟨hfirst, hrest⟩ := Ordering.then_eq_lt.mp h
        · cases a <;> cases b <;> cases hfirst
          exact .inr ⟨[], as, bs, rfl, rfl⟩
        · obtain rfl := Std.compare_eq_iff_eq.mp hfirst
          obtain ⟨hbegins, hne⟩ | ⟨common, as', bs', rfl, rfl⟩ := ih hrest
          · exact .inl ⟨List.cons_prefix_cons.mpr ⟨rfl, hbegins⟩, fun h => hne (List.cons.inj h).2⟩
          · exact .inr ⟨a :: common, as', bs', rfl, rfl⟩
  · rintro (⟨⟨rest, rfl⟩, hne⟩ | ⟨common, as', bs', rfl, rfl⟩)
    · have happend := compareBits_append_left as [] rest
      rw [List.append_nil] at happend
      rw [happend]
      cases rest with
      | nil => exact absurd (List.append_nil as).symm hne
      | cons bit rest => rfl
    · exact compareBits_append_left common _ _

/-- The character of a bit. -/
def digit (bit : Bool) : Char :=
  if bit then '1' else '0'

theorem digit_injective : Function.Injective digit := by
  intro a b h
  cases a <;> cases b <;> first | rfl | exact absurd h (by decide)

theorem toList_text (s : Step) : s.text.toList = s.bits.map digit :=
  String.toList_ofList

/-- A step is told by its text. -/
theorem text_inj {s t : Step} : s.text = t.text ↔ s.bits = t.bits := by
  rw [← String.toList_inj, toList_text, toList_text,
    (List.map_injective_iff.mpr digit_injective).eq_iff]

theorem compareBits_eq_eq_iff (as bs : List Bool) : compareBits as bs = .eq ↔ as = bs := by
  fun_induction compareBits as bs with
  | case1 => simp
  | case2 b bs => simp
  | case3 a as => simp
  | case4 a as b bs ih => rw [Ordering.then_eq_eq, Std.compare_eq_iff_eq, ih, List.cons.injEq]

theorem compare_eq_lt_iff_digit_lt (a b : Bool) : compare a b = .lt ↔ digit a < digit b := by
  cases a <;> cases b <;> decide

theorem compareBits_eq_lt_iff_map_lt (as bs : List Bool) :
    compareBits as bs = .lt ↔ as.map digit < bs.map digit := by
  fun_induction compareBits as bs with
  | case1 => simp
  | case2 b bs => simp
  | case3 a as => simp
  | case4 a as b bs ih =>
      rw [Ordering.then_eq_lt, compare_eq_lt_iff_digit_lt, Std.compare_eq_iff_eq, ih,
        List.map_cons, List.map_cons, List.cons_lt_cons_iff, digit_injective.eq_iff]

/-- **Steps are in the order of their texts.** -/
theorem compare_eq_compare_text (s t : Step) : compare s t = compare s.text t.text := by
  have hlt : compareBits s.bits t.bits = .lt ↔ s.text < t.text := by
    rw [compareBits_eq_lt_iff_map_lt, String.lt_iff_toList_lt, toList_text, toList_text]
  have heq : compareBits s.bits t.bits = .eq ↔ s.text = t.text := by
    rw [compareBits_eq_eq_iff, text_inj]
  change compareBits s.bits t.bits = compareOfLessAndEq s.text t.text
  rw [compareOfLessAndEq]
  split
  · rename_i h
    exact hlt.mpr h
  · rename_i hnot
    split
    · rename_i h
      exact heq.mpr h
    · rename_i hne
      cases hcompare : compareBits s.bits t.bits with
      | lt => exact absurd (hlt.mp hcompare) hnot
      | eq => exact absurd (heq.mp hcompare) hne
      | gt => rfl

/-- A sequence of bits has a bit at the end of a beginning if its text has the digit there. -/
theorem exists_eq_append_cons_of_map {bits : List Bool} {common rest : List Char} (bit : Bool)
    (h : bits.map digit = common ++ digit bit :: rest) :
    ∃ before after, bits = before ++ bit :: after ∧ before.map digit = common := by
  obtain ⟨before, rest', rfl, hcommon, hrest⟩ := List.map_eq_append_iff.mp h
  obtain ⟨bit', after, rfl, hbit, -⟩ := List.map_eq_cons_iff.mp hrest
  obtain rfl := digit_injective hbit
  exact ⟨before, after, rfl, hcommon⟩

/-- A step is smaller than another one if its text is a proper beginning of the other's, or has
the digit `0` where the texts first differ. -/
theorem compare_eq_lt_iff (s t : Step) :
    compare s t = .lt ↔ s.text.toList <+: t.text.toList ∧ s.text ≠ t.text ∨
      ∃ common rest rest', s.text.toList = common ++ '0' :: rest ∧
        t.text.toList = common ++ '1' :: rest' := by
  rw [Ne, text_inj, toList_text, toList_text, List.prefix_map_iff_of_injective digit_injective]
  refine (compareBits_eq_lt_iff s.bits t.bits).trans (or_congr_right ⟨?_, ?_⟩)
  · rintro ⟨common, as, bs, hs, ht⟩
    rw [hs, ht, List.map_append, List.map_append]
    exact ⟨common.map digit, as.map digit, bs.map digit, rfl, rfl⟩
  · rintro ⟨common, rest, rest', hs, ht⟩
    obtain ⟨before, as, hs, hbefore⟩ := exists_eq_append_cons_of_map false hs
    obtain ⟨before', bs, ht, hbefore'⟩ := exists_eq_append_cons_of_map true ht
    obtain rfl := List.map_injective_iff.mpr digit_injective (hbefore.trans hbefore'.symm)
    exact ⟨before, as, bs, hs, ht⟩

/-- **Binary expansions and the order of steps.** The step of a number of 64 bits has as many bits
as it is wide, and they denote the remainder of the number by a power of two. So the steps of two
numbers in one width are in the order of these remainders. And any steps are in the order of their
texts: a proper beginning comes first, and otherwise the first digit that differs decides. -/
theorem ofNat_expansion_ordered :
    (∀ number width : Nat, number < 2 ^ 64 → (ofNat number width).bits.length = width ∧
      value (ofNat number width).bits = number % 2 ^ width) ∧
      (∀ m n width : Nat, m < 2 ^ 64 → n < 2 ^ 64 →
        compare (ofNat m width) (ofNat n width) = compare (m % 2 ^ width) (n % 2 ^ width)) ∧
      ∀ s t : Step, compare s t = compare s.text t.text ∧
        (compare s t = .lt ↔ s.text.toList <+: t.text.toList ∧ s.text ≠ t.text ∨
          ∃ common rest rest', s.text.toList = common ++ '0' :: rest ∧
            t.text.toList = common ++ '1' :: rest') := by
  refine ⟨fun number width h => ⟨length_bits_ofNat number width, value_bits_ofNat h width⟩,
    fun m n width hm hn => ?_, fun s t => ⟨compare_eq_compare_text s t, compare_eq_lt_iff s t⟩⟩
  have hlength : (ofNat m width).bits.length = (ofNat n width).bits.length := by
    rw [length_bits_ofNat, length_bits_ofNat]
  rw [← value_bits_ofNat hm, ← value_bits_ofNat hn]
  exact compareBits_eq_compare_value hlength

/-- The greatest number in a step that is wider than it, and numbers in a step that cuts them
off. -/
theorem ofNat_expansion_ordered_max :
    2 ^ 64 - 1 < 2 ^ 64 ∧ value (ofNat (2 ^ 64 - 1) 66).bits = (2 ^ 64 - 1) % 2 ^ 66 ∧
      compare (ofNat 11 2) (ofNat 6 2) = compare (11 % 2 ^ 2) (6 % 2 ^ 2) := by
  obtain ⟨hexpansion, horder, -⟩ := ofNat_expansion_ordered
  have hmax : 2 ^ 64 - 1 < 2 ^ 64 := by decide
  exact ⟨hmax, (hexpansion _ 66 hmax).2, horder 11 6 2 (by decide) (by decide)⟩

end MissionTime.Step
