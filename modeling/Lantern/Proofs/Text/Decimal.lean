/-
  Lantern.Proofs.Text.Decimal — the decimal text of a number reads back as the number.

  `decimal?_toString`: every 64-bit integer is read from its own text. A text of digits
  alone, which is all the scanner hands over, reads as a number that is not negative
  (`decimal?_nonneg`), and such a number is written in digits alone (`toString_digits`).
-/

import Lantern.Text.Decimal

namespace Lantern.Text

theorem digitsValue?_digits {digits : List Char} (all : digits.all Char.isDigit) (acc : Nat) :
    digitsValue? acc digits = some (Nat.ofDigitChars 10 digits acc) := by
  induction digits generalizing acc with
  | nil => rfl
  | cons c digits ih =>
    simp only [List.all_cons, Bool.and_eq_true] at all
    obtain ⟨first, all⟩ := all
    have inRange : '0' ≤ c ∧ c ≤ '9' := by
      rw [Char.isDigit_iff_toNat] at first
      exact first
    rw [digitsValue?, if_pos inRange, ih all, Nat.ofDigitChars_cons, Nat.mul_comm]

theorem natural?_digits {digits : List Char} (all : digits.all Char.isDigit)
    (nonempty : digits ≠ []) :
    natural? digits = some (Nat.ofDigitChars 10 digits 0) := by
  cases digits with
  | nil => exact absurd rfl nonempty
  | cons c digits => exact digitsValue?_digits all 0

theorem repr_digits (n : Nat) : n.repr.toList.all Char.isDigit := by
  rw [Nat.toList_repr, List.all_eq_true]
  exact fun c mem => Nat.isDigit_of_mem_toDigits (by decide) (by decide) mem

theorem repr_ne_nil (n : Nat) : n.repr.toList ≠ [] := by
  rw [Nat.toList_repr]
  exact Nat.toDigits_ne_nil

theorem natural?_repr (n : Nat) : natural? n.repr.toList = some n := by
  rw [natural?_digits (repr_digits n) (repr_ne_nil n), Nat.toList_repr, Nat.ofDigitChars_ten_toDigits]

theorem int64?_toInt (value : Int64) : int64? value.toInt = some value := by
  have low : Int64.minValue.toInt ≤ value.toInt := Int64.minValue_le_toInt value
  have high : value.toInt ≤ Int64.maxValue.toInt := Int64.toInt_le value
  rw [int64?, if_pos ⟨low, high⟩, Int64.ofInt_toInt]

/-- Without a sign in front, the text is read as a natural number. -/
theorem decimal?_digits {text : String} (all : text.toList.all Char.isDigit) :
    decimal? text = (natural? text.toList).bind fun n => int64? n := by
  unfold decimal?
  split
  · next digits chars => rw [chars] at all; simp at all
  · next digits chars => rw [chars] at all; simp at all
  · rfl

theorem decimal?_minus {text : String} {digits : List Char} (chars : text.toList = '-' :: digits) :
    decimal? text = (natural? digits).bind fun n => int64? (-n) := by
  unfold decimal?
  rw [chars]
  rfl

theorem decimal?_toString (value : Int64) : decimal? (toString value.toInt) = some value := by
  refine Eq.trans ?_ (int64?_toInt value)
  rw [Int.toString_eq_repr]
  cases value.toInt with
  | ofNat n =>
    rw [Int.repr, decimal?_digits (repr_digits n), natural?_repr, Option.bind_some]
    rfl
  | negSucc n =>
    have chars : (Int.repr (.negSucc n)).toList = '-' :: (n + 1).repr.toList := by
      simp [Int.repr]
    rw [decimal?_minus chars, natural?_repr, Option.bind_some, Int.negSucc_eq]
    rfl

theorem toString_digits {value : Int64} (nonneg : 0 ≤ value.toInt) :
    (toString value.toInt).toList ≠ [] ∧ (toString value.toInt).toList.all Char.isDigit := by
  rw [Int.toString_eq_repr]
  obtain ⟨n, eq⟩ := Int.eq_ofNat_of_zero_le nonneg
  rw [eq]
  exact ⟨repr_ne_nil n, repr_digits n⟩

theorem decimal?_nonneg {text : String} {value : Int64} (all : text.toList.all Char.isDigit)
    (reads : decimal? text = some value) : 0 ≤ value.toInt := by
  rw [decimal?_digits all, Option.bind_eq_some_iff] at reads
  obtain ⟨n, -, reads⟩ := reads
  unfold int64? at reads
  split at reads
  · next range =>
    obtain ⟨low, high⟩ := range
    rw [Int64.toInt_minValue] at low
    rw [Int64.toInt_maxValue] at high
    rw [← Option.some.inj reads, Int64.toInt_ofInt_of_le low (by omega)]
    exact Int.natCast_nonneg n
  · cases reads

end Lantern.Text
