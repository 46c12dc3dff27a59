import MatrixCalculator.Double
import MatrixCalculator.Tolerance
import Mathlib.Algebra.Order.Field.Rat
import Mathlib.Tactic.Linarith
import Mathlib.Tactic.Positivity
import Mathlib.Tactic.Tauto

/-! The tolerances in exact rational arithmetic. A rational number counts as zero if it lies
strictly within the absolute tolerance. -/
namespace MatrixCalculator

theorem magnitude_rat (x : ℚ) : Scalar.magnitude x = |x| := by
  show (if x < 0 then -x else x) = |x|
  split
  · next negative => exact (abs_of_neg negative).symm
  · next positive => exact (abs_of_nonneg (not_lt.mp positive)).symm

theorem absoluteTolerance_rat : (Scalar.absoluteTolerance : ℚ) = 1 / 10 ^ 12 := by
  show mkRat 1 1000000000000 = _
  rw [Rat.mkRat_eq_div]
  norm_num

theorem relativeTolerance_rat : (Scalar.relativeTolerance : ℚ) = 1 / 10 ^ 10 := by
  show mkRat 1 10000000000 = _
  rw [Rat.mkRat_eq_div]
  norm_num

theorem leastNormal_rat : (Scalar.leastNormal : ℚ) = 1 / 2 ^ 1022 := by
  have power (k : Nat) : mkRat 1 (Nat.pow 2 k) = 1 / 2 ^ k := by
    rw [Rat.mkRat_eq_div, Nat.pow_eq, Nat.cast_pow]
    norm_num
  show mkRat 1 (Nat.pow 2 1022) = _
  apply power

theorem nearlyEqual_iff (a b : ℚ) :
    nearlyEqual a b = true ↔
      a = b ∨ ((a = 0 ∨ b = 0) ∧ |a - b| < 1 / 10 ^ 12) ∨
      (a ≠ 0 ∧ b ≠ 0 ∧ if |a| + |b| < 1 / 2 ^ 1022 then |a - b| < 1 / 10 ^ 12 * (1 / 2 ^ 1022)
        else |a - b| / (|a| + |b|) < 1 / 10 ^ 10) := by
  unfold nearlyEqual
  simp only [magnitude_rat, absoluteTolerance_rat, relativeTolerance_rat, leastNormal_rat,
    beq_iff_eq, Bool.or_eq_true]
  by_cases same : a = b
  · simp [same]
  · by_cases zero : a = 0 ∨ b = 0
    · simp only [same, zero, if_false, if_true, decide_eq_true_eq, false_or, true_and]
      tauto
    · have apart := not_or.mp zero
      simp only [same, apart, if_false, false_or, false_and, ne_eq, not_false_eq_true,
        true_and]
      split_ifs <;> exact decide_eq_true_iff

theorem isZero_iff (x : ℚ) : isZero x = true ↔ |x| < 1 / 10 ^ 12 := by
  unfold isZero
  rw [nearlyEqual_iff]
  by_cases zero : x = 0
  · subst zero
    simp
  · simp [zero]

@[simp] theorem isZero_zero : isZero (0 : ℚ) = true := by
  rw [isZero_iff]
  norm_num

@[simp] theorem isZero_one : isZero (1 : ℚ) = false := by
  rw [Bool.eq_false_iff, ne_eq, isZero_iff]
  norm_num

theorem ne_zero_of_isZero_false {x : ℚ} (nonzero : isZero x = false) : x ≠ 0 := by
  rintro rfl
  simp at nonzero

/-- Two numbers whose difference counts as zero are nearly equal if one of them is zero or if
they are not both small. -/
theorem nearlyEqual_of_isZero_sub {a b : ℚ} (close : isZero (a - b) = true)
    (sized : a = 0 ∨ b = 0 ∨ 1 / 100 ≤ |a| + |b|) : nearlyEqual a b = true := by
  rw [isZero_iff] at close
  rw [nearlyEqual_iff]
  by_cases zero : a = 0 ∨ b = 0
  · exact .inr (.inl ⟨zero, close⟩)
  · have apart := not_or.mp zero
    have size : 1 / 100 ≤ |a| + |b| := (sized.resolve_left apart.1).resolve_left apart.2
    have normal : (1 : ℚ) / 2 ^ 1022 ≤ 1 / 2 ^ 7 :=
      one_div_le_one_div_of_le (by norm_num) (pow_le_pow_right₀ (by norm_num) (by norm_num))
    have large : ¬|a| + |b| < 1 / 2 ^ 1022 := by
      rw [not_lt]
      exact normal.trans (le_trans (by norm_num) size)
    refine .inr (.inr ⟨apart.1, apart.2, ?_⟩)
    rw [if_neg large, div_lt_iff₀ (lt_of_lt_of_le (by norm_num) size)]
    linarith

end MatrixCalculator
