import MatrixCalculator.Proofs.DenseMatrix.RowOperation
import MatrixCalculator.Proofs.Double.TotalOrder
import MatrixCalculator.Proofs.Grid.Pivot
import Mathlib.Order.Bounds.Basic

/-! The search for a pivot through checked indices. Where the scalars are totally ordered, it ends in
the first row from `start` on whose number in the column no other such row exceeds in magnitude.
If that number counts as zero, then so does all the column from `start` on. -/
namespace MatrixCalculator.DenseMatrix

open Scalar (TotallyOrdered)

variable {α : Type} [Scalar α] {IsNumber : α → Prop} {m n : Nat} {g : Grid α m n} {j : Fin n}
  {start : Fin m}

/-- The rows from `start` on whose number in a column is of the largest magnitude there. -/
def largestRows (m : DenseMatrix α) (col : Fin m.cols) (start : Fin m.rows) : Set (Fin m.rows) :=
  {r | start ≤ r ∧ ∀ s, start ≤ s →
    ¬Scalar.magnitude (m.grid.get r col) < Scalar.magnitude (m.grid.get s col)}

theorem pivotRow_ofGrid (g : Grid α m n) (j : Fin n) (start : Fin m) :
    (ofGrid g).pivotRow (j.val : Int) (start.val : Int) = .ok (g.pivotRow j start) := by
  rw [DenseMatrix.pivotRow, locate_ofGrid]
  rfl

theorem pairwise_start_rowsBelow (start : Fin m) :
    (start :: Grid.rowsBelow start).Pairwise (· < ·) := by
  refine List.pairwise_cons.mpr ⟨fun r => Grid.mem_rowsBelow.mp, ?_⟩
  exact (List.pairwise_lt_finRange m).filter _

/-- The first one of the largest in a list of rows is the least of all largest ones if the list
goes from the top to the bottom. -/
theorem isLeast_pivotRow (ordered : TotallyOrdered IsNumber)
    (numbers : ∀ r, start ≤ r → IsNumber (g.get r j)) :
    IsLeast ((ofGrid g).largestRows j start) (g.pivotRow j start) := by
  have first := Grid.firstLargest_pivotRow ordered numbers
  have sizes (r : Fin m) (member : r ∈ start :: Grid.rowsBelow start) :
      IsNumber (Scalar.magnitude (g.get r j)) :=
    ordered.magnitude (numbers r (Grid.mem_start_rowsBelow.mp member))
  refine ⟨⟨Grid.start_le_pivotRow g j start, fun s below => ?_⟩, ?_⟩
  · have largest := first.not_lt ordered sizes (Grid.mem_start_rowsBelow.mpr below)
    exact largest
  · rintro r ⟨below, largest⟩
    have sorted := pairwise_start_rowsBelow start
    have member := Grid.mem_start_rowsBelow.mpr below
    obtain ⟨before, after, parted, smaller, -⟩ := first
    rw [parted] at sorted member
    rcases List.mem_append.mp member with earlier | later
    · exact absurd (smaller r earlier) (largest _ (Grid.start_le_pivotRow g j start))
    · rcases List.mem_cons.mp later with rfl | later
      · exact le_refl _
      · exact (List.rel_of_pairwise_cons (List.pairwise_append.mp sorted).2.1 later).le

/-- The search for a pivot ends in a row of the matrix, the first one of the largest. If the number
there counts as zero, no number from `start` on is too large to do so. -/
theorem pivotRow_first (ordered : TotallyOrdered IsNumber) (m : DenseMatrix α) (col : Fin m.cols)
    (start : Fin m.rows) (numbers : ∀ r, start ≤ r → IsNumber (m.grid.get r col)) :
    ∃ r, m.pivotRow (col.val : Int) (start.val : Int) = .ok r ∧
      searchPivot m col start = .ok r.val ∧ IsLeast (m.largestRows col start) r ∧
      (isZero (m.grid.get r col) = true →
        ∀ s, start ≤ s → isZero (m.grid.get s col) = true) := by
  obtain ⟨rows, cols, g⟩ := m
  have least := isLeast_pivotRow ordered numbers
  refine ⟨g.pivotRow col start, pivotRow_ofGrid g col start, searchPivot_ofGrid g col start, least,
    fun zero s below => ?_⟩
  obtain ⟨inside, largest⟩ := least.1
  exact ordered.isZero_of_not_lt (numbers _ inside) (numbers s below) (largest s below) zero

/-- From the second row on, two numbers of the first column are equally large, as are two of the
second one, which count as zero. -/
def tied : Grid Float 4 2 :=
  Grid.ofFn fun i j => if j = 0 then [9, -2, 2, 1].getD i 0 else [1, -0.0, 1e-13, -1e-13].getD i 0

/-- Of equally large numbers the first one is chosen. -/
theorem tied_first :
    (∀ (r : Fin 4) (j : Fin 2), Double.IsNumber (tied.get r j)) ∧
      (ofGrid tied).pivotRow 0 1 = .ok (1 : Fin 4) ∧
      IsLeast ((ofGrid tied).largestRows (0 : Fin 2) (1 : Fin 4)) (1 : Fin 4) ∧
      (ofGrid tied).pivotRow 1 1 = .ok (2 : Fin 4) ∧
      ∀ s : Fin 4, 1 ≤ s → isZero (tied.get s 1) = true := by
  have numbers : ∀ (r : Fin 4) (j : Fin 2), Double.IsNumber (tied.get r j) := by
    unfold Double.IsNumber
    decide +kernel
  have picked : tied.pivotRow 0 1 = 1 ∧ tied.pivotRow 1 1 = 2 := by decide +kernel
  have first : (ofGrid tied).pivotRow 0 1 = .ok (1 : Fin 4) :=
    (pivotRow_ofGrid tied 0 1).trans (congrArg Except.ok picked.1)
  have second : (ofGrid tied).pivotRow 1 1 = .ok (2 : Fin 4) :=
    (pivotRow_ofGrid tied 1 1).trans (congrArg Except.ok picked.2)
  obtain ⟨r, found, -, least, -⟩ := pivotRow_first Double.totallyOrdered (ofGrid tied) (0 : Fin 2)
    (1 : Fin 4) fun r _ => numbers r 0
  obtain ⟨s, reached, -, -, zero⟩ := pivotRow_first Double.totallyOrdered (ofGrid tied) (1 : Fin 2)
    (1 : Fin 4) fun r _ => numbers r 1
  cases found.symm.trans first
  cases reached.symm.trans second
  exact ⟨numbers, first, least, second, zero (by decide +kernel)⟩

end MatrixCalculator.DenseMatrix
