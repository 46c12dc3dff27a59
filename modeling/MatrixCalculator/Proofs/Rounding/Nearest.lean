import MatrixCalculator.Rounding
import Mathlib.Algebra.Order.Field.Basic
import Mathlib.Algebra.Order.Field.Rat
import Mathlib.Algebra.Order.Ring.Abs
import Mathlib.Tactic.Linarith
import Mathlib.Tactic.NormNum

/-! The whole number nearest to a rational number. It is no more than half a unit away, equals a
number that is whole, and is no larger than a whole bound of the number. -/
namespace MatrixCalculator.Rounding

theorem abs_quotient_sub_le (n : Nat) {d : Nat} (positive : 0 < d) :
    |(quotient n d : ℚ) - n / d| ≤ 1 / 2 := by
  have unit : (0 : ℚ) < d := by exact_mod_cast positive
  have lower : (2 * n : ℚ) ≤ 2 * (quotient n d * d) + d := by
    exact_mod_cast quotient_lower n d positive
  have upper : (2 * (quotient n d * d) : ℚ) ≤ 2 * n + d := by
    exact_mod_cast quotient_upper n d positive
  have product : (n / d : ℚ) * d = n := div_mul_cancel₀ _ unit.ne'
  rw [abs_le]
  constructor <;> nlinarith

theorem quotient_eq_zero_iff (n : Nat) {d : Nat} (positive : 0 < d) :
    quotient n d = 0 ↔ (n / d : ℚ) ≤ 1 / 2 := by
  have unit : (0 : ℚ) < d := by exact_mod_cast positive
  have whole : (n / d : ℚ) ≤ 1 / 2 ↔ 2 * n ≤ d := by
    rw [div_le_div_iff₀ unit two_pos, one_mul, mul_comm]
    exact_mod_cast Iff.rfl
  rw [whole]
  constructor
  · intro zero
    have lower := quotient_lower n d positive
    rwa [zero, Nat.zero_mul, Nat.mul_zero, Nat.zero_add] at lower
  · intro small
    have below : n < d := by omega
    rw [quotient, Nat.div_eq_of_lt below, Nat.mod_eq_of_lt below, if_neg (Nat.not_lt.mpr small)]
    exact ite_self 0

theorem natAbs_num_div_den (x : ℚ) : (x.num.natAbs / x.den : ℚ) = |x| := by
  conv => rhs; rw [← Rat.num_div_den x, abs_div, Nat.abs_cast]
  rw [Nat.cast_natAbs, Int.cast_abs]

theorem abs_sub_nearest_le (x : ℚ) : |x - nearest x| ≤ 1 / 2 := by
  have near := abs_quotient_sub_le x.num.natAbs x.den_pos
  rw [natAbs_num_div_den] at near
  unfold nearest
  dsimp only
  split
  · next negative =>
    rw [abs_of_neg (Rat.num_neg.mp negative)] at near
    rwa [Int.cast_neg, Int.cast_natCast, sub_neg_eq_add, add_comm, ← sub_neg_eq_add]
  · next nonneg =>
    rw [abs_of_nonneg (Rat.num_nonneg.mp (not_lt.mp nonneg)), abs_sub_comm] at near
    rwa [Int.cast_natCast]

theorem nearest_eq_zero {x : ℚ} (small : |x| ≤ 1 / 2) : nearest x = 0 := by
  rw [← natAbs_num_div_den, ← quotient_eq_zero_iff _ x.den_pos] at small
  rw [nearest, small]
  exact ite_self 0

theorem nearest_intCast (k : ℤ) : nearest (k : ℚ) = k := by
  have whole : quotient k.natAbs 1 = k.natAbs := by simp [quotient, Nat.mod_one]
  simp only [nearest, Rat.num_intCast, Rat.den_intCast, whole]
  split <;> omega

theorem natAbs_num_le {x : ℚ} {bound : Nat} (small : |x| ≤ bound) :
    x.num.natAbs ≤ bound * x.den := by
  rw [← natAbs_num_div_den, div_le_iff₀ (by exact_mod_cast x.den_pos)] at small
  exact_mod_cast small

theorem natAbs_nearest_le {x : ℚ} {bound : Nat} (small : |x| ≤ bound) :
    (nearest x).natAbs ≤ bound := by
  have size : (nearest x).natAbs = quotient x.num.natAbs x.den := by
    unfold nearest
    dsimp only
    split <;> omega
  have numerator := natAbs_num_le small
  have upper := quotient_upper x.num.natAbs x.den x.den_pos
  rw [size]
  by_contra above
  have next : (bound + 1) * x.den ≤ quotient x.num.natAbs x.den * x.den :=
    Nat.mul_le_mul_right _ (Nat.lt_of_not_le above)
  have positive := x.den_pos
  rw [Nat.succ_mul] at next
  omega

theorem natAbs_truncated_le {x : ℚ} {bound : Nat} (small : |x| ≤ bound) :
    (truncated x).natAbs ≤ bound := by
  have size : (truncated x).natAbs = x.num.natAbs / x.den := by
    unfold truncated
    dsimp only
    split
    · rw [Int.natAbs_neg, Int.natAbs_natCast]
    · rw [Int.natAbs_natCast]
  rw [size]
  exact Nat.div_le_of_le_mul (by rw [Nat.mul_comm]; exact natAbs_num_le small)

end MatrixCalculator.Rounding
