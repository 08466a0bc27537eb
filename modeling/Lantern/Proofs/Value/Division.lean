/-
  Lantern.Proofs.Value.Division — dividing integers.

  The exact quotient of two integers is a fraction. The quotient of the language is the
  whole number next to it on the side of zero (`towardZero`), brought back into 64 bits;
  the least integer divided by `-1` is the one quotient this changes. Where a quotient,
  a product or a sum wraps, it wraps by multiples of 2^64, so a quotient times its
  divisor with the remainder added is the dividend again, without exception
  (`div_mul_add_mod`).

  - `division_consistent`: what `/` and `%` answer, for every dividend and every
    divisor.
-/

import Mathlib.Data.Rat.Floor
import Lantern.Eval.Operator

namespace Lantern

/-! ## The exact quotient -/

/-- The whole number next to a fraction on the side of zero; the fraction itself if it
    is whole. -/
def towardZero (x : ℚ) : ℤ := if 0 ≤ x then ⌊x⌋ else ⌈x⌉

theorem towardZero_neg (x : ℚ) : towardZero (-x) = -towardZero x := by
  unfold towardZero
  rcases lt_trichotomy x 0 with below | rfl | above
  · simp [not_le.2 below, below.le, Int.floor_neg]
  · simp
  · simp [above.le, not_le.2 above, Int.ceil_neg]

theorem towardZero_natCast_div (a b : ℕ) : towardZero ((a : ℚ) / b) = ((a / b : ℕ) : ℤ) := by
  have nonneg : (0 : ℚ) ≤ a / b := by positivity
  rw [towardZero, if_pos nonneg]
  exact Rat.floor_natCast_div_natCast a b

/-- A sign in front of the dividend or the divisor stands in front of the quotient. -/
theorem towardZero_div (a b : ℤ) : towardZero ((a : ℚ) / b) = a.tdiv b := by
  obtain ⟨n, rfl | rfl⟩ := a.eq_nat_or_neg <;> obtain ⟨m, rfl | rfl⟩ := b.eq_nat_or_neg
  all_goals simp [neg_div, div_neg, towardZero_neg, towardZero_natCast_div]

/-! ## Remainders -/

theorem abs_tmod_lt (a : ℤ) {b : ℤ} (nonzero : b ≠ 0) : |a.tmod b| < |b| := by
  have smaller : (a.tmod b).natAbs < b.natAbs := by
    rw [Int.natAbs_tmod]
    exact Nat.mod_lt _ (Int.natAbs_pos.2 nonzero)
  rw [Int.abs_eq_natAbs, Int.abs_eq_natAbs]
  exact Int.ofNat_lt.2 smaller

/-- A remainder is zero or on the side of zero that the dividend is on. -/
theorem tmod_eq_zero_or_sign (a b : ℤ) : a.tmod b = 0 ∨ (a.tmod b).sign = a.sign := by
  by_cases divides : b ∣ a
  · exact .inl (Int.tmod_eq_zero_of_dvd divides)
  · exact .inr (by rw [Int.sign_tmod, if_neg divides])

/-- Quotient and remainder give back the dividend: they do so before anything wraps, and
    to wrap first changes no sum or product that is wrapped in the end. -/
theorem div_mul_add_mod (a b : Int64) : a / b * b + a % b = a := by
  have quotient : Int64.ofInt (a.toInt.tdiv b.toInt) = a / b := by
    rw [Int64.ofInt_tdiv a.minValue_le_toInt a.toInt_le b.minValue_le_toInt b.toInt_le, a.ofInt_toInt, b.ofInt_toInt]
  have remainder : Int64.ofInt (a.toInt.tmod b.toInt) = a % b := by
    rw [Int64.ofInt_tmod a.minValue_le_toInt a.toInt_le b.minValue_le_toInt b.toInt_le, a.ofInt_toInt, b.ofInt_toInt]
  calc a / b * b + a % b
      = Int64.ofInt (a.toInt.tdiv b.toInt * b.toInt + a.toInt.tmod b.toInt) := by
        rw [Int64.ofInt_add, Int64.ofInt_mul, quotient, remainder, b.ofInt_toInt]
    _ = Int64.ofInt a.toInt := by rw [Int.tdiv_mul_add_tmod]
    _ = a := a.ofInt_toInt

/-! ## The operators -/

/-- Every dividend has a quotient and a remainder by every divisor but zero. The
    quotient is the exact one, cut towards zero and wrapped; the remainder is smaller
    than the divisor and zero or of the sign of the dividend; and `q * b + r` is the
    dividend. By zero both operators give the error for it. -/
theorem division_consistent (a b : Int64) :
    (b ≠ 0 → ∃ q r : Int64,
      InfixOp.div.apply (.integer a) (.integer b) = .ok (.integer q) ∧
      InfixOp.mod.apply (.integer a) (.integer b) = .ok (.integer r) ∧
      (do InfixOp.add.apply (← InfixOp.mul.apply (.integer q) (.integer b)) (.integer r)) = .ok (.integer a) ∧
      |r.toInt| < |b.toInt| ∧ (r = 0 ∨ r.toInt.sign = a.toInt.sign) ∧
      q.toInt = (towardZero ((a.toInt : ℚ) / b.toInt)).bmod (2 ^ 64)) ∧
    (b = 0 → ∀ op ∈ [InfixOp.div, InfixOp.mod], ∃ error,
      op.apply (.integer a) (.integer b) = .error error ∧ error.kind = .divisionByZero) := by
  constructor
  · intro nonzero
    have nonzero' : b.toInt ≠ 0 := fun zero => nonzero (Int64.toInt_inj.1 zero)
    refine ⟨a / b, a % b, ?_, ?_, ?_, ?_, ?_, ?_⟩
    · simp [InfixOp.apply, InfixOp.arithmetic, InfixOp.onIntegers, nonzero]
    · simp [InfixOp.apply, InfixOp.arithmetic, InfixOp.onIntegers, nonzero]
    · exact congrArg (fun n => Except.ok (Value.integer n)) (div_mul_add_mod a b)
    · rw [Int64.toInt_mod]
      exact abs_tmod_lt a.toInt nonzero'
    · rw [← Int64.toInt_inj, Int64.toInt_mod]
      exact tmod_eq_zero_or_sign a.toInt b.toInt
    · rw [Int64.toInt_div, towardZero_div]
  · rintro rfl op isDivision
    rcases List.mem_pair.1 isDivision with rfl | rfl
    · exact ⟨.divisionByZero, rfl, rfl⟩
    · exact ⟨.modulusByZero, rfl, rfl⟩

/-- The quotient that wraps: the least integer divided by `-1` is itself, without a
    remainder. -/
theorem division_consistent_least :
    (-1 : Int64) ≠ 0 ∧ InfixOp.div.apply (.integer Int64.minValue) (.integer (-1)) = .ok (.integer Int64.minValue) ∧
      InfixOp.mod.apply (.integer Int64.minValue) (.integer (-1)) = .ok (.integer 0) ∧
      (∃ q r : Int64, (do InfixOp.add.apply (← InfixOp.mul.apply (.integer q) (.integer (-1))) (.integer r)) =
          .ok (.integer Int64.minValue) ∧ |r.toInt| < |(-1 : Int64).toInt| ∧
        q.toInt = (towardZero ((Int64.minValue.toInt : ℚ) / (-1 : Int64).toInt)).bmod (2 ^ 64)) ∧
      ∃ error, InfixOp.mod.apply (.integer 7) (.integer 0) = .error error ∧ error.kind = .divisionByZero := by
  have nonzero : (-1 : Int64) ≠ 0 := by decide
  obtain ⟨q, r, -, -, again, smaller, -, exact_⟩ := (division_consistent Int64.minValue (-1)).1 nonzero
  exact ⟨nonzero, rfl, rfl, ⟨q, r, again, smaller, exact_⟩,
    (division_consistent 7 0).2 rfl .mod (by decide)⟩

end Lantern
