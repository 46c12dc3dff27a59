import MatrixCalculator.Proofs.Double.Packing
import MatrixCalculator.Proofs.Rounding.Nearest

/-! The range of doubles. A double that equals zero is smaller than the least normal one, one that
is no infinity and no NaN has an exact value, and no exact value is larger than that of the
largest double. -/
namespace MatrixCalculator

namespace Double

open Float.Model

theorem lt_iff (x y : Float) :
    x < y ↔ (x.toModel.unpack.compare y.toModel.unpack == some .lt) = true := by
  show x.lt y = true ↔ _
  simp only [Float.lt, decide_eq_true_eq]
  exact Iff.rfl

theorem beq_eq (x y : Float) :
    (x == y) = (x.toModel.unpack.compare y.toModel.unpack == some .eq) :=
  rfl

theorem unpack_zero : (0 : Float).toModel.unpack = .zero .positive :=
  rfl

theorem unpack_leastNormal :
    (Scalar.leastNormal : Float).toModel.unpack =
      .finite .positive (2 ^ 52) (-1074) (Nat.two_pow_pos 52) :=
  rfl

theorem lt_leastNormal_of_beq_zero {x : Float} (zero : (x == 0) = true) :
    x < Scalar.leastNormal := by
  rw [beq_eq, unpack_zero] at zero
  rw [lt_iff, unpack_leastNormal]
  cases shape : x.toModel.unpack with
  | infinity sign => rw [shape] at zero; cases sign <;> cases zero
  | notANumber => rw [shape] at zero; cases zero
  | zero sign => rfl
  | finite sign m q positive => rw [shape] at zero; cases sign <;> cases zero

theorem not_lt_of_beq {x y : Float} (same : (x == y) = true) : ¬x < y := by
  rw [beq_eq, beq_iff_eq] at same
  rw [lt_iff, same]
  decide

theorem exists_exact {x : Float} (number : x.isNaN = false) (bounded : x.isInf = false) :
    ∃ value, exact x = some value := by
  have number : x.toModel.unpack.isNaN = false := number
  have bounded : x.toModel.unpack.isInf = false := bounded
  unfold exact
  cases shape : x.toModel.unpack with
  | infinity sign => rw [shape] at bounded; cases bounded
  | notANumber => rw [shape] at number; cases number
  | zero sign => exact ⟨_, rfl⟩
  | finite sign m q positive => exact ⟨_, rfl⟩

theorem power_two_bounds {q : Int} {k : Nat} (bound : q ≤ k) :
    0 ≤ Decimal.power 2 q ∧ Decimal.power 2 q ≤ 2 ^ k := by
  unfold Decimal.power
  split
  · have exponent : q.toNat ≤ k := by omega
    rw [Nat.pow_eq, Nat.cast_pow]
    exact ⟨by positivity, pow_le_pow_right₀ (by norm_num) exponent⟩
  · rw [Rat.mkRat_eq_div, Nat.pow_eq, Nat.cast_pow, Int.cast_one]
    refine ⟨by positivity, le_trans (div_le_one_of_le₀ ?_ (by positivity)) ?_⟩
    · exact one_le_pow₀ (by norm_num)
    · exact one_le_pow₀ (by norm_num)

def largest : Nat := (2 ^ 53 - 1) * Nat.pow 2 971

theorem cast_shifted (m k : Nat) : ((m * Nat.pow 2 k : Nat) : ℚ) = m * 2 ^ k := by
  rw [Nat.cast_mul, Nat.pow_eq, Nat.cast_pow, Nat.cast_ofNat]

theorem abs_exact_le {x : Float} {value : ℚ} (known : exact x = some value) :
    |value| ≤ largest := by
  unfold exact at known
  cases shape : x.toModel.unpack with
  | infinity sign => rw [shape] at known; cases known
  | notANumber => rw [shape] at known; cases known
  | zero sign =>
    rw [shape] at known
    cases known
    rw [abs_zero]
    exact Nat.cast_nonneg _
  | finite sign m q positive =>
    rw [shape] at known
    cases known
    have fits := canonical_of_unpack shape
    obtain ⟨lower, upper⟩ := power_two_bounds fits.upper
    have size : |((sign.apply (m : Int) : Int) : ℚ)| = m := by
      cases sign <;> simp [UnpackedFloat.Sign.apply]
    have digits : (m : ℚ) ≤ ((2 ^ 53 - 1 : Nat) : ℚ) := by
      exact_mod_cast Nat.le_pred_of_lt fits.mantissa
    calc |((sign.apply (m : Int) : Int) : ℚ) * Decimal.power 2 q|
        = m * Decimal.power 2 q := by rw [abs_mul, size, abs_of_nonneg lower]
      _ ≤ ((2 ^ 53 - 1 : Nat) : ℚ) * 2 ^ 971 := mul_le_mul digits upper lower (Nat.cast_nonneg _)
      _ = largest := by simp only [largest, cast_shifted]

/-- No infinity lies between 0 and 170. -/
theorem isInf_of_between {x : Float} (lower : ¬x < 0) (upper : ¬170 < x) : x.isInf = false := by
  have bound : (170 : Float).toModel.unpack =
      .finite .positive 5981343255101440 (-45) (by decide) := rfl
  rw [lt_iff, unpack_zero] at lower
  rw [lt_iff, bound] at upper
  show x.toModel.unpack.isInf = false
  cases shape : x.toModel.unpack with
  | infinity sign =>
    rw [shape] at lower upper
    cases sign with
    | positive => exact absurd rfl upper
    | negative => exact absurd rfl lower
  | notANumber => rfl
  | zero sign => rfl
  | finite sign m q positive => rfl

end Double
end MatrixCalculator
