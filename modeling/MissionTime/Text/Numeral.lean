/-!
# Decimal Numerals

A numeral is a nonempty run of the digits `0` to `9`. It keeps its digits, so that a numeral
whose value is out of range can be shown as it was written, with any leading zeros.

## Main definitions

* `Numeral` — the numerals, with `Numeral.value`;
* `Numeral.ofNat` — the numeral without leading zeros of a number;
* `Numeral.read?` — the longest numeral at the beginning of a text.
-/

namespace MissionTime.Text

/-- A nonempty run of decimal digits. -/
structure Numeral where
  digits : List Char
  digits_ne_nil : digits ≠ []
  isDigit_of_mem : ∀ c ∈ digits, c.isDigit = true
  deriving DecidableEq

namespace Numeral

/-- The number that a numeral denotes. -/
def value (n : Numeral) : Nat :=
  Nat.ofDigitChars 10 n.digits 0

/-- The numeral of a number, without leading zeros. -/
def ofNat (n : Nat) : Numeral where
  digits := Nat.toDigits 10 n
  digits_ne_nil := Nat.toDigits_ne_nil
  isDigit_of_mem := fun _ h => Nat.isDigit_of_mem_toDigits (by decide) (by decide) h

@[simp] theorem value_ofNat (n : Nat) : (ofNat n).value = n :=
  Nat.ofDigitChars_toDigits (by decide) (by decide)

/-! ### Reading -/

/-- The longest numeral at the beginning of a text, and the text after it. -/
def read? (text : List Char) : Option (Numeral × List Char) :=
  if h : text.takeWhile Char.isDigit = [] then none
  else some (⟨text.takeWhile Char.isDigit, h, List.all_eq_true.mp List.all_takeWhile⟩,
    text.dropWhile Char.isDigit)

/-- A numeral that is read and what follows it make up the text. -/
theorem digits_append_of_read? {text rest : List Char} {n : Numeral}
    (h : read? text = some (n, rest)) : n.digits ++ rest = text := by
  unfold read? at h
  split at h
  · cases h
  · cases h
    exact List.takeWhile_append_dropWhile

/-- A numeral that is read shortens the text. -/
theorem length_lt_of_read? {text rest : List Char} {n : Numeral}
    (h : read? text = some (n, rest)) : rest.length < text.length := by
  have hn := List.length_pos_iff.mpr n.digits_ne_nil
  rw [← digits_append_of_read? h, List.length_append]
  omega

end Numeral

end MissionTime.Text
