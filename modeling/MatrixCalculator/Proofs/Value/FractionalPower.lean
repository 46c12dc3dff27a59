import MatrixCalculator.Proofs.DenseMatrix.OfGrid
import MatrixCalculator.Proofs.Tolerance.Doubles
import MatrixCalculator.Value.Elementary

/-! Powers to fractional exponents. An exponent at least a quarter away from every whole number is
refused for every square matrix and every negative number, unless it is so large that the relative
tolerance reaches over the fraction. A base that counts as zero is refused a negative exponent
before the fraction is looked at. -/
namespace MatrixCalculator.Value

variable {x : Float} {value : ℚ}

structure RefusedExponent (x : Float) : Prop where
  fractional : isIntegral x = false
  ofMatrix : ∀ m : DenseMatrix Float, m.isSquare = true →
    (m.power x).outcome = .error .fractionalMatrixPower
  ofNegative : ∀ base : Float, base < 0 → ((scalar base).power (scalar x)).outcome =
    .error (if isZero base = true ∧ x < 0 then .negativePowerOfZero else .fractionalPowerOfNegative)

theorem isIntegral_of_fraction (known : Double.exact x = some value)
    (fraction : 1 / 4 ≤ |value - round value|)
    (near : |value| ≤ (5 * 10 ^ 9 - 1) * |value - round value|) : isIntegral x = false := by
  rw [Bool.eq_false_iff]
  intro integral
  have least : |value - round value| ≤ |value - Rounding.nearest value| := round_le value _
  have distance := Double.distance_lt_of_isIntegral known integral (by linarith)
  linarith

theorem power_of_fractional (m : DenseMatrix Float) (square : m.isSquare = true)
    (fractional : isIntegral x = false) : (m.power x).outcome = .error .fractionalMatrixPower := by
  obtain ⟨rows, cols, g⟩ := m
  obtain rfl : rows = cols := beq_iff_eq.mp square
  refine (DenseMatrix.power_ofGrid g x).trans ?_
  rw [fractional]
  cases Scalar.nearest x <;> rfl

theorem scalarPower_of_fractional {base : Float} (negative : base < 0)
    (fractional : isIntegral x = false) : scalarPower base x =
      .error (if isZero base = true ∧ x < 0 then .negativePowerOfZero
        else .fractionalPowerOfNegative) := by
  unfold scalarPower
  rw [fractional]
  by_cases zero : isZero base = true ∧ x < 0
  · rw [if_pos zero, if_pos (by simpa using zero)]
  · rw [if_neg zero, if_neg (by simpa using zero), if_pos negative]
    cases Scalar.nearest x <;> rfl

/-- The fraction of an exponent is seen unless the exponent is some five thousand million times as
large. -/
theorem exponent_refused (known : Double.exact x = some value)
    (fraction : 1 / 4 ≤ |value - round value|)
    (near : |value| ≤ (5 * 10 ^ 9 - 1) * |value - round value|) : RefusedExponent x where
  fractional := isIntegral_of_fraction known fraction near
  ofMatrix m square := power_of_fractional m square (isIntegral_of_fraction known fraction near)
  ofNegative base negative := by
    rw [power, Calculation.outcome_bind, Calculation.outcome_ofExcept,
      scalarPower_of_fractional negative (isIntegral_of_fraction known fraction near)]
    rfl

theorem large_exponent_refused :
    Double.exact 1249999999.75 = some (4999999999 / 4) ∧
      1 / 4 ≤ |(4999999999 / 4 : ℚ) - round (4999999999 / 4 : ℚ)| ∧
      |(4999999999 / 4 : ℚ)| ≤
        (5 * 10 ^ 9 - 1) * |(4999999999 / 4 : ℚ) - round (4999999999 / 4 : ℚ)| ∧
      RefusedExponent 1249999999.75 := by
  have known : Double.exact 1249999999.75 = some (4999999999 / 4) := by decide +kernel
  have distance : |(4999999999 / 4 : ℚ) - round (4999999999 / 4 : ℚ)| = 1 / 4 := by
    rw [round_eq]
    norm_num
  have near : |(4999999999 / 4 : ℚ)| ≤
      (5 * 10 ^ 9 - 1) * |(4999999999 / 4 : ℚ) - round (4999999999 / 4 : ℚ)| := by
    rw [distance]
    norm_num
  exact ⟨known, distance.ge, near, exponent_refused known distance.ge near⟩

/-- A quarter counts for nothing beside 1250000000, and powers to this exponent exist. To a negative
fraction a negative number that counts as zero has no power, but for another reason. -/
theorem larger_exponent_accepted :
    Double.exact 1250000000.25 = some (5000000001 / 4) ∧
      |(5000000001 / 4 : ℚ) - round (5000000001 / 4 : ℚ)| = 1 / 4 ∧
      isIntegral (1250000000.25 : Float) = true ∧
      (∃ m, ((DenseMatrix.ofScalar (1 : Float)).power 1250000000.25).outcome = .ok m) ∧
      (∃ v, ((scalar (-1)).power (scalar 1250000000.25)).outcome = .ok v) ∧
      Double.exact (-0.5) = some (-1 / 2) ∧ (-1e-13 : Float) < 0 ∧
      ((scalar (-1e-13)).power (scalar (-0.5))).outcome = .error .negativePowerOfZero := by
  have integral : isIntegral (1250000000.25 : Float) = true := by decide +kernel
  have nearest : Scalar.nearest (1250000000.25 : Float) = some 1250000000 := by decide +kernel
  have fractional : isIntegral (-0.5 : Float) = false := by decide +kernel
  have tiny : (-1e-13 : Float) < 0 := by decide +kernel
  refine ⟨by decide +kernel, ?_, integral, ?_, ?_, by decide +kernel, tiny, ?_⟩
  · rw [round_eq]
    norm_num
  · refine ⟨DenseMatrix.ofGrid ((Grid.ofFn fun _ _ : Fin 1 => (1 : Float)).power 1250000000), ?_⟩
    rw [DenseMatrix.ofScalar, DenseMatrix.power_ofGrid, integral, nearest]
    rfl
  · refine ⟨scalar (Float.pow (-1) (Scalar.ofInt 1250000000)), ?_⟩
    have negative : (-1 : Float) < 0 := by decide +kernel
    have other : ¬(isZero (-1 : Float) && decide ((1250000000.25 : Float) < 0)) = true := by
      decide +kernel
    rw [power, Calculation.outcome_bind, Calculation.outcome_ofExcept, scalarPower, if_neg other,
      if_pos negative, integral, nearest]
    rfl
  · have zero : isZero (-1e-13 : Float) = true ∧ (-0.5 : Float) < 0 := by decide +kernel
    rw [power, Calculation.outcome_bind, Calculation.outcome_ofExcept,
      scalarPower_of_fractional tiny fractional, if_pos zero]
    rfl

end MatrixCalculator.Value
