import MatrixCalculator.Display
import MatrixCalculator.Grid.Elimination
import MatrixCalculator.Proofs.Checked.Outcome
import MatrixCalculator.Proofs.Double.NotFinite

/-! Checked arithmetic. The machine divides by no zero, rounds no infinity and no NaN to a whole
number, and turns no whole number beyond the range of doubles into one. The comparisons and the
texts of numbers ask for none of these. -/
namespace MatrixCalculator.Checked

def divide (x y : Float) : Except Fault Float := do
  let d ← Grid.divisor y
  return x / d

theorem divide_eq_ok (x : Float) {y : Float} (nonzero : (y == 0) = false) :
    divide x y = .ok (x / y) := by
  simp [divide, Grid.divisor, nonzero]

def nearlyEqual (a b : Float) : Except Fault Bool :=
  let gap := Scalar.magnitude (a - b)
  let size := Scalar.magnitude a + Scalar.magnitude b
  if a == b then .ok true
  else if a == 0 || b == 0 then .ok (decide (gap < Scalar.absoluteTolerance))
  else if size < Scalar.leastNormal then
    .ok (decide (gap < Scalar.absoluteTolerance * Scalar.leastNormal))
  else do
    let ratio ← divide gap size
    return decide (ratio < Scalar.relativeTolerance)

@[simp] theorem nearlyEqual_eq_ok (a b : Float) :
    nearlyEqual a b = .ok (MatrixCalculator.nearlyEqual a b) := by
  unfold nearlyEqual MatrixCalculator.nearlyEqual
  dsimp only
  split
  · rfl
  · split
    · rfl
    · split
      · rfl
      · next large =>
        have nonzero : (Scalar.magnitude a + Scalar.magnitude b == 0) = false :=
          Bool.eq_false_iff.mpr fun zero => large (Double.lt_leastNormal_of_beq_zero zero)
        rw [divide_eq_ok _ nonzero]
        rfl

def isZero (x : Float) : Except Fault Bool :=
  nearlyEqual x 0

@[simp] theorem isZero_eq_ok (x : Float) : isZero x = .ok (MatrixCalculator.isZero x) :=
  nearlyEqual_eq_ok x 0

def exact (x : Float) : Except MachineError Rat :=
  match Double.exact x with
  | some value => .ok value
  | none => .error (if x.isNaN then .domain else .overflow)

def nearest (x : Float) : Except MachineError Int :=
  return Rounding.nearest (← exact x)

def truncated (x : Float) : Except MachineError Int :=
  return Rounding.truncated (← exact x)

/-- The least size of a whole number that is rounded to no finite double. -/
def overflowing : Nat := Nat.pow 2 1024 - Nat.pow 2 970

def ofInt (n : Int) : Except MachineError Float :=
  if n.natAbs < overflowing then .ok (Scalar.ofInt n) else .error .overflow

theorem largest_lt_overflowing : Double.largest < overflowing := by
  decide +kernel

theorem ofInt_nearest {x : Float} {value : ℚ} (known : Double.exact x = some value) :
    ofInt (Rounding.nearest value) = .ok (Scalar.ofInt (Rounding.nearest value)) :=
  if_pos ((Rounding.natAbs_nearest_le (Double.abs_exact_le known)).trans_lt largest_lt_overflowing)

theorem ofInt_of_le {n : Int} {value : ℚ} {x : Float} (known : Double.exact x = some value)
    (small : n.natAbs ≤ (Rounding.truncated value).natAbs) : ofInt n = .ok (Scalar.ofInt n) :=
  if_pos ((small.trans (Rounding.natAbs_truncated_le (Double.abs_exact_le known))).trans_lt
    largest_lt_overflowing)

def isIntegral (x : Float) : Except (Stop Fault) Bool :=
  if Scalar.isFinite x then do
    let whole ← ofInt (← nearest x)
    nearlyEqual x whole
  else return false

@[simp] theorem isIntegral_eq_ok (x : Float) :
    isIntegral x = .ok (MatrixCalculator.isIntegral x) := by
  cases known : Double.exact x with
  | none =>
    have infinite : Scalar.exact x = none := known
    simp [isIntegral, MatrixCalculator.isIntegral, Scalar.isFinite, Scalar.nearest, infinite]
    rfl
  | some value =>
    have finite : Scalar.exact x = some value := known
    simp [isIntegral, MatrixCalculator.isIntegral, Scalar.isFinite, Scalar.nearest, finite, nearest,
      exact, known, ofInt_nearest known]

def text (x : Float) : Except (Stop Fault) (List Char) := do
  if ← isZero x then return ['0']
  if !Scalar.isFinite x then return (Scalar.text x).toList
  let whole ← nearest x
  if ← nearlyEqual x (← ofInt whole) then return Decimal.integer whole
  return Decimal.fixed Display.defaultPlaces (← exact x)

@[simp] theorem text_eq_ok (x : Float) :
    text x = .ok (Display.scalar Display.defaultPlaces x) := by
  unfold text Display.scalar
  simp only [isZero_eq_ok, lift_ok, ok_bind]
  split
  · rfl
  · cases known : Double.exact x with
    | none =>
      have infinite : Scalar.exact x = none := known
      simp [Scalar.isFinite, infinite]
      rfl
    | some value =>
      have finite : Scalar.exact x = some value := known
      simp [Scalar.isFinite, finite, nearest, exact, known, ofInt_nearest known]
      exact (apply_ite Except.ok _ _ _).symm

end MatrixCalculator.Checked
