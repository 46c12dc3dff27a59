import MatrixCalculator.Proofs.Tolerance.Exact

/-! Totally ordered scalars. Of any two numbers one is smaller, or they are equal for the comparison
`==`; an undefined result is no number and compares with nothing. A number counts as zero exactly if
its magnitude is smaller than the absolute tolerance, so that it counts as zero as soon as one of no
smaller magnitude does. -/
namespace MatrixCalculator.Scalar

variable {α : Type} [Scalar α] {IsNumber : α → Prop} {x y z : α}

/-- The numbers are totally ordered, and magnitudes, zero and the absolute tolerance have their
place among them. -/
structure TotallyOrdered (IsNumber : α → Prop) : Prop where
  asymm : ∀ {x y}, IsNumber x → IsNumber y → x < y → ¬y < x
  between : ∀ {x y z}, IsNumber x → IsNumber y → IsNumber z → x < z → x < y ∨ y < z
  beq_iff : ∀ {x y}, IsNumber x → IsNumber y → ((x == y) = true ↔ ¬x < y ∧ ¬y < x)
  magnitude : ∀ {x}, IsNumber x → IsNumber (magnitude x)
  zero : IsNumber (0 : α)
  magnitude_zero : ∀ {x}, IsNumber x → (x == 0) = true → (Scalar.magnitude x == 0) = true
  sub_zero : ∀ {x : α}, IsNumber x → x - 0 = x
  tolerance : IsNumber (absoluteTolerance : α)
  tolerance_pos : (0 : α) < absoluteTolerance

namespace TotallyOrdered

variable (ordered : TotallyOrdered IsNumber)
include ordered

theorem irrefl (number : IsNumber x) : ¬x < x :=
  fun less => ordered.asymm number number less less

theorem lt_of_not_lt_of_lt (first : IsNumber x) (second : IsNumber y) (third : IsNumber z)
    (noLess : ¬y < x) (less : y < z) : x < z :=
  (ordered.between second first third less).resolve_left noLess

theorem isZero_iff (number : IsNumber x) :
    isZero x = true ↔ Scalar.magnitude x < absoluteTolerance := by
  have exact_zero : ((0 : α) == 0) = true :=
    (ordered.beq_iff ordered.zero ordered.zero).mpr
      ⟨ordered.irrefl ordered.zero, ordered.irrefl ordered.zero⟩
  unfold isZero nearlyEqual
  simp only [exact_zero, Bool.or_true, if_true, ordered.sub_zero number]
  cases same : x == 0 with
  | false => simp
  | true =>
    have size := ordered.magnitude number
    obtain ⟨-, small⟩ :=
      (ordered.beq_iff size ordered.zero).mp (ordered.magnitude_zero number same)
    have within := ordered.lt_of_not_lt_of_lt size ordered.zero ordered.tolerance small
      ordered.tolerance_pos
    simp [within]

/-- What counts as zero lies around zero: nothing of a smaller magnitude is excepted. -/
theorem isZero_of_not_lt (first : IsNumber x) (second : IsNumber y)
    (noLarger : ¬Scalar.magnitude x < Scalar.magnitude y) (zero : isZero x = true) :
    isZero y = true := by
  rw [ordered.isZero_iff first] at zero
  rw [ordered.isZero_iff second]
  exact ordered.lt_of_not_lt_of_lt (ordered.magnitude second) (ordered.magnitude first)
    ordered.tolerance noLarger zero

end TotallyOrdered

/-- All rational numbers are numbers. -/
theorem totallyOrdered_rat : TotallyOrdered fun _ : ℚ => True where
  asymm _ _ := lt_asymm
  between {x y _} _ _ _ less := (lt_or_ge x y).imp_right fun le => lt_of_le_of_lt le less
  beq_iff {x y} _ _ := by
    rw [beq_iff_eq, not_lt, not_lt, and_comm]
    exact le_antisymm_iff
  magnitude _ := trivial
  zero := trivial
  magnitude_zero {x} _ zero := by
    rw [beq_iff_eq] at zero
    rw [beq_iff_eq, zero, magnitude_rat, abs_zero]
  sub_zero {x} _ := sub_zero x
  tolerance := trivial
  tolerance_pos := by
    rw [absoluteTolerance_rat]
    positivity

end MatrixCalculator.Scalar
