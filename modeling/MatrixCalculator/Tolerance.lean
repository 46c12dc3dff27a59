import MatrixCalculator.Scalar

/-! Approximate equality of scalars. Every numeric decision, such as whether a pivot counts as
zero, is taken through these comparisons. -/
namespace MatrixCalculator

variable {α : Type} [Scalar α]

/-- Equality up to noise. Identical numbers are equal. Against an exact zero the gap is measured
absolutely, between numbers too small for relative accuracy against the least normal number,
and otherwise against the sizes of the two numbers. -/
def nearlyEqual (a b : α) : Bool :=
  let gap := Scalar.magnitude (a - b)
  let size := Scalar.magnitude a + Scalar.magnitude b
  if a == b then true
  else if a == 0 || b == 0 then decide (gap < Scalar.absoluteTolerance)
  else if size < Scalar.leastNormal then
    decide (gap < Scalar.absoluteTolerance * Scalar.leastNormal)
  else decide (gap / size < Scalar.relativeTolerance)

def isZero (x : α) : Bool :=
  nearlyEqual x 0

/-- Whether a finite scalar is a whole number up to tolerance. -/
def isIntegral (x : α) : Bool :=
  match Scalar.nearest x with
  | none => false
  | some n => nearlyEqual x (Scalar.ofInt n)

/-- A number that does not count as zero is no exact zero. -/
theorem ne_zero_of_not_isZero {x : α} (nonzero : isZero x = false) : (x == 0) = false := by
  cases same : x == 0 with
  | false => rfl
  | true => simp [isZero, nearlyEqual, same] at nonzero

end MatrixCalculator
