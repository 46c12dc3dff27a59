import MatrixCalculator.Display
import MatrixCalculator.Proofs.Decimal.Notation
import MatrixCalculator.Proofs.Tolerance.Doubles

/-! The text of numbers. A finite double is written as the nearest whole number if it counts as
one and with a fixed number of places otherwise, and what is read back differs from it by no more
than the tolerances and half a unit of the last place. -/
namespace MatrixCalculator.Display

variable {x : Float} {value : ℚ}

theorem isIntegral_of_isZero (known : Double.exact x = some value) (zero : isZero x = true) :
    isIntegral x = true := by
  have small := (Double.isZero_iff_of_exact known).mp zero
  rw [Double.isIntegral_of_nearest_zero known (Rounding.nearest_eq_zero (by linarith)), zero]

def whole (x : Float) (value : ℚ) : Int :=
  if isZero x then 0 else Rounding.nearest value

theorem scalar_of_exact (known : Double.exact x = some value) (places : Nat) : scalar places x =
    if isIntegral x then Decimal.integer (whole x value) else Decimal.fixed places value := by
  have exact : Scalar.exact x = some value := known
  unfold scalar whole
  by_cases zero : isZero x = true
  · rw [if_pos zero, if_pos (isIntegral_of_isZero known zero), if_pos zero]
    rfl
  · rw [if_neg zero, if_neg zero, exact, Double.isIntegral_of_exact known]
    rfl

/-- The texts that do not depend on a value: that of zero, and those of doubles that are not
finite. -/
def bareTexts : List (List Char) :=
  [['0'], ['n', 'a', 'n'], ['i', 'n', 'f'], ['-', 'i', 'n', 'f']]

theorem text_of_unknown (unknown : Double.exact x = none) : Double.text x ∈ bareTexts := by
  unfold Double.exact at unknown
  unfold Double.text bareTexts
  cases shape : x.toModel.unpack with
  | notANumber => simp
  | infinity sign => cases sign <;> simp [Double.signed]
  | zero sign => rw [shape] at unknown; cases unknown
  | finite sign m q positive => rw [shape] at unknown; cases unknown

theorem scalar_of_unknown (unknown : Double.exact x = none) (places : Nat) :
    scalar places x ∈ bareTexts := by
  have exact : Scalar.exact x = none := unknown
  have text : (Scalar.text x).toList = Double.text x := String.toList_ofList
  unfold scalar
  split
  · exact List.mem_cons_self
  · rw [exact]
    dsimp only
    rw [text]
    exact text_of_unknown unknown

theorem exists_plain (known : Double.exact x = some value) (places : Nat) :
    ∃ d : Decimal.Plain (if isIntegral x then 0 else places), d.text = scalar places x := by
  rw [scalar_of_exact known]
  by_cases integral : isIntegral x = true
  · rw [if_pos integral, if_pos integral]
    exact ⟨_, Decimal.text_plainInteger _⟩
  · rw [if_neg integral, if_neg integral]
    exact ⟨_, Decimal.text_plainFixed value places⟩

theorem abs_whole_sub_le (known : Double.exact x = some value) (integral : isIntegral x = true) :
    |(whole x value : ℚ) - value| ≤ max (1 / 10 ^ 12) (1 / 10 ^ 9 * |value|) := by
  unfold whole
  split
  · next zero =>
    have small := (Double.isZero_iff_of_exact known).mp zero
    rw [Int.cast_zero, zero_sub, abs_neg]
    exact le_max_of_le_left (by linarith)
  · rw [abs_sub_comm]
    rcases le_total |value - Rounding.nearest value| (1 / 10 ^ 12) with close | apart
    · exact le_max_of_le_left close
    · have distance := Double.distance_lt_of_isIntegral known integral apart
      exact le_max_of_le_right (by linarith [abs_nonneg value])

/-- Of every finite double the text is in plain notation, and the number that it denotes is close to
the double. -/
theorem scalar_denotes (known : Double.exact x = some value) (places : Nat) :
    (∃ d : Decimal.Plain (if isIntegral x then 0 else places), d.text = scalar places x) ∧
      |Decimal.denoted (scalar places x) - value| ≤
        max (1 / 10 ^ 12) (max (1 / 10 ^ places / 2) (1 / 10 ^ 9 * |value|)) := by
  refine ⟨exists_plain known places, ?_⟩
  rw [scalar_of_exact known]
  split
  · next integral =>
    rw [Decimal.denoted_integer]
    exact (abs_whole_sub_le known integral).trans (max_le_max_left _ (le_max_right _ _))
  · refine le_max_of_le_right (le_max_of_le_left ?_)
    rw [div_right_comm]
    exact Decimal.abs_denoted_fixed_sub_le value places

theorem tenth_denotes : Double.exact 0.1 = some (3602879701896397 / 36028797018963968) ∧
    (∃ d : Decimal.Plain (if isIntegral (0.1 : Float) then 0 else 3),
      d.text = scalar 3 (0.1 : Float)) ∧
    |Decimal.denoted (scalar 3 (0.1 : Float)) - 3602879701896397 / 36028797018963968| ≤
      max (1 / 10 ^ 12) (max (1 / 10 ^ 3 / 2)
        (1 / 10 ^ 9 * |3602879701896397 / 36028797018963968|)) := by
  have known : Double.exact 0.1 = some (3602879701896397 / 36028797018963968) := by decide +kernel
  exact ⟨known, scalar_denotes known 3⟩

end MatrixCalculator.Display
