import MatrixCalculator.DenseMatrix

/-! Matrices made of grids. An operation on such a matrix whose indices lie inside is the
operation on the grid. -/
namespace MatrixCalculator.DenseMatrix

variable {α : Type} {m n p : Nat}

theorem locate_ofGrid (g : Grid α m n) (i : Fin m) (j : Fin n) :
    (ofGrid g).locate (i.val : Int) (j.val : Int) = .ok (i, j) := by
  have inside : (0 ≤ (i.val : Int) ∧ (i.val : Int) < m) ∧ 0 ≤ (j.val : Int) ∧ (j.val : Int) < n := by
    omega
  exact dif_pos inside

@[simp] theorem get_ofGrid (g : Grid α m n) (i : Fin m) (j : Fin n) :
    (ofGrid g).get (i.val : Int) (j.val : Int) = .ok (g.get i j) := by
  rw [DenseMatrix.get, locate_ofGrid]
  rfl

@[simp] theorem set_ofGrid (g : Grid α m n) (i : Fin m) (j : Fin n) (x : α) :
    (ofGrid g).set (i.val : Int) (j.val : Int) x = .ok (ofGrid (g.set i j x)) := by
  rw [DenseMatrix.set, locate_ofGrid]
  rfl

/-- A row is found by its number if it has a cell. -/
theorem locateRow_ofGrid (g : Grid α m n) (wide : 0 < n) (i : Fin m) :
    (ofGrid g).locateRow (i.val : Int) = .ok i := by
  have found : (ofGrid g).locate i.val 0 = .ok (i, ⟨0, wide⟩) := locate_ofGrid g i ⟨0, wide⟩
  rw [locateRow, found]
  rfl

theorem swapRows_ofGrid (g : Grid α m n) (wide : 0 < n) (i j : Fin m) :
    (ofGrid g).swapRows (i.val : Int) (j.val : Int) = .ok (ofGrid (g.swapRows i j)) := by
  unfold DenseMatrix.swapRows
  by_cases same : i = j
  · rw [same, Grid.swapRows_self, if_pos rfl]
  · have apart : (i.val : Int) ≠ j.val := fun equal => same (Fin.ext (Int.ofNat.inj equal))
    rw [if_neg apart, locateRow_ofGrid g wide i, locateRow_ofGrid g wide j]
    rfl

theorem get_swapRows_ofGrid (g : Grid α m n) (i j : Fin m) (c : Fin n) :
    (ofGrid (g.swapRows i j)).get (j.val : Int) (c.val : Int) = .ok (g.get i c) := by
  rw [get_ofGrid, Grid.get_swapRows_right]

theorem scaleRow_ofGrid [Mul α] (g : Grid α m n) (wide : 0 < n) (i : Fin m) (factor : α) :
    (ofGrid g).scaleRow (i.val : Int) factor = .ok (ofGrid (g.scaleRow i factor)) := by
  rw [DenseMatrix.scaleRow, locateRow_ofGrid g wide i]
  rfl

theorem addRow_ofGrid [Add α] [Mul α] (g : Grid α m n) (wide : 0 < n) (target source : Fin m)
    (factor : α) : (ofGrid g).addRow (target.val : Int) (source.val : Int) factor =
      .ok (ofGrid (g.addRow target source factor)) := by
  rw [DenseMatrix.addRow, locateRow_ofGrid g wide target, locateRow_ofGrid g wide source]
  rfl

@[simp] theorem mul_ofGrid [Zero α] [Add α] [Mul α] (g : Grid α m n) (h : Grid α n p) :
    (ofGrid g).mul (ofGrid h) = .ok (ofGrid (g.mul h)) :=
  dif_pos rfl

theorem new_natCast [Zero α] (rows cols : Nat) :
    DenseMatrix.new (rows : Int) (cols : Int) none =
      .ok (ofGrid (Grid.zero rows cols : Grid α rows cols)) := by
  simp [DenseMatrix.new]

theorem identity_natCast [Zero α] [One α] (n : Nat) :
    DenseMatrix.identity (n : Int) = .ok (ofGrid (Grid.identity n : Grid α n n)) := by
  simp [DenseMatrix.identity]

theorem exists_grid_of_mul [Zero α] [Add α] [Mul α] {a q : DenseMatrix α} {h : Grid α n p}
    (product : a.mul (ofGrid h) = .ok q) :
    ∃ (m : Nat) (g : Grid α m n), a = ofGrid g ∧ q = ofGrid (g.mul h) := by
  by_cases fits : n = a.cols
  · obtain ⟨rows, cols, g⟩ := a
    dsimp only at fits
    subst fits
    exact ⟨rows, g, rfl, (Except.ok.inj ((mul_ofGrid g h).symm.trans product)).symm⟩
  · have refused : a.mul (ofGrid h) = .error _ := dif_neg fits
    rw [refused] at product
    contradiction

theorem exists_grid_of_ofGrid_mul [Zero α] [Add α] [Mul α] {b q : DenseMatrix α}
    {g : Grid α m n} (product : (ofGrid g).mul b = .ok q) :
    ∃ (p : Nat) (h : Grid α n p), b = ofGrid h ∧ q = ofGrid (g.mul h) := by
  by_cases fits : b.rows = n
  · obtain ⟨rows, cols, h⟩ := b
    dsimp only at fits
    subst fits
    exact ⟨cols, h, rfl, (Except.ok.inj ((mul_ofGrid g h).symm.trans product)).symm⟩
  · have refused : (ofGrid g).mul b = .error _ := dif_neg fits
    rw [refused] at product
    contradiction

theorem exists_grid_of_square (m : DenseMatrix α) (same : m.cols = m.rows) :
    ∃ (n : Nat) (g : Grid α n n), m = ofGrid g := by
  obtain ⟨rows, cols, g⟩ := m
  dsimp only at same
  subst same
  exact ⟨_, g, rfl⟩

theorem square_ofGrid (operation : SquareOperation) (g : Grid α n n) :
    (ofGrid g).square operation = .ok g :=
  dif_pos rfl

theorem square_of_ne (operation : SquareOperation) {m : DenseMatrix α}
    (different : m.cols ≠ m.rows) : m.square operation = .error (.notSquare operation) :=
  dif_neg different

variable [Scalar α]

theorem determinant_ofGrid (g : Grid α n n) :
    (ofGrid g).determinant.outcome = g.determinant.outcome := by
  rw [DenseMatrix.determinant, Calculation.outcome_bind, Calculation.outcome_ofExcept,
    square_ofGrid]
  rfl

theorem determinant_of_not_square {m : DenseMatrix α} (different : m.cols ≠ m.rows) :
    m.determinant.outcome = .error (.notSquare .determinant) := by
  rw [DenseMatrix.determinant, Calculation.outcome_bind, Calculation.outcome_ofExcept,
    square_of_ne _ different]
  rfl

theorem inverse_ofGrid (g : Grid α n n) :
    (ofGrid g).inverse.outcome = g.inverse.outcome.map ofGrid := by
  simp only [DenseMatrix.inverse, Calculation.outcome_bind, Calculation.outcome_ofExcept,
    square_ofGrid]
  show (g.inverse.outcome >>= fun h => .ok (ofGrid h)) = _
  cases g.inverse.outcome <;> rfl

theorem inverse_of_not_square {m : DenseMatrix α} (different : m.cols ≠ m.rows) :
    m.inverse.outcome = .error (.notSquare .inverse) := by
  rw [DenseMatrix.inverse, Calculation.outcome_bind, Calculation.outcome_ofExcept,
    square_of_ne _ different]
  rfl

theorem power_ofGrid (g : Grid α n n) (exponent : α) :
    ((ofGrid g).power exponent).outcome =
      match Scalar.nearest exponent, isIntegral exponent with
      | some k, true =>
        (if k < 0 then g.inverse.outcome else .ok g).map fun base => ofGrid (base.power k.natAbs)
      | _, _ => .error .fractionalMatrixPower := by
  rw [DenseMatrix.power, Calculation.outcome_bind, Calculation.outcome_ofExcept, square_ofGrid]
  show (match Scalar.nearest exponent, isIntegral exponent with
    | some k, true => _
    | _, _ => _ : Calculation Fault (DenseMatrix α)).outcome = _
  split
  · next k _ _ =>
    split
    · refine (Calculation.outcome_bind _ _).trans ?_
      show (g.inverse.outcome >>= fun base => .ok (ofGrid (base.power k.natAbs))) = _
      cases g.inverse.outcome <;> rfl
    · rfl
  · rfl

theorem power_of_not_square {m : DenseMatrix α} (different : m.cols ≠ m.rows) (exponent : α) :
    (m.power exponent).outcome = .error (.notSquare .power) := by
  rw [DenseMatrix.power, Calculation.outcome_bind, Calculation.outcome_ofExcept,
    square_of_ne _ different]
  rfl

end MatrixCalculator.DenseMatrix
