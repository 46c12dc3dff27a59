import MatrixCalculator.Proofs.DenseMatrix.OfGrid
import MatrixCalculator.Proofs.Grid.Inverse
import MatrixCalculator.Value.Arithmetic

/-! Division in exact arithmetic. The inverse of a matrix is its inverse from both sides, so a
quotient of matrices multiplied by the divisor gives back the dividend, whichever side the divisor
stands on. -/
namespace MatrixCalculator

variable {n : Nat}

namespace Grid

theorem inverse_singular {g : Grid ℚ n n} {size : ℚ} (computed : g.determinant.outcome = .ok size)
    (zero : isZero size = true) : g.inverse.outcome = .error .singular := by
  rw [Grid.inverse, Calculation.outcome_bind, computed]
  show (if isZero size = true then Calculation.fail Fault.singular else _).outcome = _
  rw [if_pos zero]
  rfl

/-- An inverse that is found is one from both sides. -/
theorem mul_eq_identity_of_inverse {g h : Grid ℚ n n} (found : g.inverse.outcome = .ok h) :
    h.mul g = identity n ∧ g.mul h = identity n := by
  obtain ⟨size, computed, _⟩ := determinant_ok g
  cases zero : isZero size with
  | true =>
    rw [inverse_singular computed zero] at found
    contradiction
  | false =>
    obtain ⟨inverse, reached, left, right⟩ := inverse_ok computed zero
    cases Except.ok.inj (reached.symm.trans found)
    exact ⟨left, right⟩

end Grid

namespace DenseMatrix

/-- A matrix that has an inverse is a square grid, and so is its inverse. -/
theorem exists_grid_of_inverse {a x : DenseMatrix ℚ} (found : a.inverse.outcome = .ok x) :
    ∃ (n : Nat) (g h : Grid ℚ n n), a = ofGrid g ∧ x = ofGrid h ∧
      h.mul g = Grid.identity n ∧ g.mul h = Grid.identity n := by
  by_cases same : a.cols = a.rows
  · obtain ⟨rows, cols, g⟩ := a
    dsimp only at same
    subst same
    have mapped : g.inverse.outcome.map ofGrid = .ok x := (inverse_ofGrid g).symm.trans found
    cases reached : g.inverse.outcome with
    | error fault =>
      rw [reached] at mapped
      contradiction
    | ok h =>
      rw [reached] at mapped
      exact ⟨_, g, h, rfl, (Except.ok.inj mapped).symm, Grid.mul_eq_identity_of_inverse reached⟩
  · rw [inverse_of_not_square same] at found
    contradiction

theorem mul_inverse {a x : DenseMatrix ℚ} (found : a.inverse.outcome = .ok x) :
    a.mul x = DenseMatrix.identity a.rows ∧ x.mul a = DenseMatrix.identity a.rows := by
  obtain ⟨n, g, h, rfl, rfl, left, right⟩ := exists_grid_of_inverse found
  rw [mul_ofGrid, mul_ofGrid, left, right]
  exact ⟨(identity_natCast n).symm, (identity_natCast n).symm⟩

end DenseMatrix

namespace Value

open DenseMatrix

theorem multiply_matrix_eq_ok {a b : DenseMatrix ℚ} {q : Value ℚ}
    (product : (matrix a).multiply (matrix b) = .ok q) : ∃ c, a.mul b = .ok c ∧ q = matrix c := by
  have mapped : (a.mul b >>= fun c => Except.ok (matrix c)) = .ok q := product
  cases reached : a.mul b with
  | error fault =>
    rw [reached] at mapped
    contradiction
  | ok c =>
    rw [reached] at mapped
    exact ⟨c, rfl, (Except.ok.inj mapped).symm⟩

theorem inverse_matrix_bind {β : Type} {a : DenseMatrix ℚ} {next : Value ℚ → Except Fault β} {q : β}
    (reached : ((matrix a).inverse.outcome >>= next) = .ok q) :
    ∃ x, a.inverse.outcome = .ok x ∧ next (matrix x) = .ok q := by
  have inverted : (matrix a).inverse.outcome = a.inverse.outcome >>= fun x => .ok (matrix x) :=
    Calculation.outcome_bind _ _
  rw [inverted] at reached
  cases found : a.inverse.outcome with
  | error fault =>
    rw [found] at reached
    contradiction
  | ok x =>
    rw [found] at reached
    exact ⟨x, rfl, reached⟩

theorem multiply_divide {l r : DenseMatrix ℚ} {q : Value ℚ}
    (divided : ((matrix l).divide (matrix r)).outcome = .ok q) :
    q.multiply (matrix r) = .ok (matrix l) := by
  rw [divide, Calculation.outcome_bind] at divided
  obtain ⟨x, found, product⟩ := inverse_matrix_bind divided
  obtain ⟨c, multiplied, rfl⟩ := multiply_matrix_eq_ok product
  obtain ⟨n, g, h, rfl, rfl, left, _⟩ := exists_grid_of_inverse found
  obtain ⟨m, k, rfl, rfl⟩ := exists_grid_of_mul multiplied
  have back : (ofGrid (k.mul h)).mul (ofGrid g) = .ok (ofGrid k) := by
    rw [mul_ofGrid, Grid.mul_mul, left, Grid.mul_identity]
  rw [Value.multiply, back]
  rfl

theorem multiply_leftDivide {l r : DenseMatrix ℚ} {q : Value ℚ}
    (divided : ((matrix l).leftDivide (matrix r)).outcome = .ok q) :
    (matrix l).multiply q = .ok (matrix r) := by
  rw [leftDivide, Calculation.outcome_bind] at divided
  obtain ⟨x, found, product⟩ := inverse_matrix_bind divided
  obtain ⟨c, multiplied, rfl⟩ := multiply_matrix_eq_ok product
  obtain ⟨n, g, h, rfl, rfl, _, right⟩ := exists_grid_of_inverse found
  obtain ⟨p, k, rfl, rfl⟩ := exists_grid_of_ofGrid_mul multiplied
  have back : (ofGrid g).mul (ofGrid (h.mul k)) = .ok (ofGrid k) := by
    rw [mul_ofGrid, ← Grid.mul_mul, right, Grid.identity_mul]
  rw [Value.multiply, back]
  rfl

end Value

/-- An inverse that is found is one from both sides, for matrices of every size. Hence a quotient
from the right times its divisor is the dividend, and so is the divisor times a quotient from the
left. -/
theorem inverse_cancels :
    (∀ a x : DenseMatrix ℚ, a.inverse.outcome = .ok x →
      a.mul x = DenseMatrix.identity a.rows ∧ x.mul a = DenseMatrix.identity a.rows) ∧
    (∀ (l r : DenseMatrix ℚ) (q : Value ℚ),
      ((Value.matrix l).divide (Value.matrix r)).outcome = .ok q →
        q.multiply (Value.matrix r) = .ok (Value.matrix l)) ∧
    (∀ (l r : DenseMatrix ℚ) (q : Value ℚ),
      ((Value.matrix l).leftDivide (Value.matrix r)).outcome = .ok q →
        (Value.matrix l).multiply q = .ok (Value.matrix r)) :=
  ⟨fun _ _ => DenseMatrix.mul_inverse, fun _ _ _ => Value.multiply_divide,
    fun _ _ _ => Value.multiply_leftDivide⟩

deriving instance DecidableEq for DenseMatrix, Value

/-- A matrix with zeros in its diagonal: the pivots are found only after exchanges of rows. -/
def exchanging : DenseMatrix ℚ :=
  .ofGrid (m := 3) (n := 3) ⟨#v[0, 2, 1, 1, 0, 0, 3, 0, 1]⟩

def exchangingInverse : DenseMatrix ℚ :=
  .ofGrid (m := 3) (n := 3) ⟨#v[0, 1, 0, 1 / 2, 3 / 2, -1 / 2, 0, -3, 1]⟩

def wide : DenseMatrix ℚ :=
  .ofGrid (m := 2) (n := 3) ⟨#v[1, 2, 3, 4, 5, 6]⟩

def wideQuotient : DenseMatrix ℚ :=
  .ofGrid (m := 2) (n := 3) ⟨#v[1, -5, 2, 5 / 2, -13 / 2, 7 / 2]⟩

def tallQuotient : DenseMatrix ℚ :=
  .ofGrid (m := 3) (n := 2) ⟨#v[2, 5, 2, 13 / 2, -3, -9]⟩

theorem exchanging_cancels :
    exchanging.inverse.outcome = .ok exchangingInverse ∧
      exchanging.mul exchangingInverse = DenseMatrix.identity 3 ∧
      exchangingInverse.mul exchanging = DenseMatrix.identity 3 ∧
      ((Value.matrix wide).divide (.matrix exchanging)).outcome = .ok (.matrix wideQuotient) ∧
      (Value.matrix wideQuotient).multiply (.matrix exchanging) = .ok (.matrix wide) ∧
      ((Value.matrix exchanging).leftDivide (.matrix wide.transpose)).outcome =
        .ok (.matrix tallQuotient) ∧
      (Value.matrix exchanging).multiply (.matrix tallQuotient) = .ok (.matrix wide.transpose) := by
  obtain ⟨cancels, right, left⟩ := inverse_cancels
  have inverted : exchanging.inverse.outcome = .ok exchangingInverse := by decide +kernel
  have divided : ((Value.matrix wide).divide (.matrix exchanging)).outcome =
      .ok (.matrix wideQuotient) := by decide +kernel
  have solved : ((Value.matrix exchanging).leftDivide (.matrix wide.transpose)).outcome =
      .ok (.matrix tallQuotient) := by decide +kernel
  obtain ⟨after, before⟩ := cancels _ _ inverted
  exact ⟨inverted, after, before, divided, right _ _ _ divided, solved, left _ _ _ solved⟩

end MatrixCalculator
