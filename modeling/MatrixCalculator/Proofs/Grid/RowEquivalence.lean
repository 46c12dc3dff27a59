import MatrixCalculator.Proofs.Grid.View
import Mathlib.LinearAlgebra.Matrix.Rank

/-! Row equivalence. Every elementary row operation is the multiplication by an invertible
matrix from the left, so it keeps the rank of any choice of columns and the solutions of the
equations that the rows of an augmented grid stand for. -/
namespace MatrixCalculator.Grid

variable {α : Type} {m n : Nat}

theorem swapRows_swapRows (i j : Fin m) (g : Grid α m n) :
    (g.swapRows i j).swapRows i j = g := by
  apply ext
  intro r c
  simp only [get_swapRows]
  split_ifs <;> simp_all

theorem scaleRow_scaleRow [Field α] (i : Fin m) {factor : α} (nonzero : factor ≠ 0)
    (g : Grid α m n) : (g.scaleRow i factor⁻¹).scaleRow i factor = g := by
  apply ext
  intro r c
  simp only [get_scaleRow]
  split
  · exact inv_mul_cancel_right₀ nonzero _
  · rfl

/-- Multiples of a row that itself has no factor can be taken back. -/
theorem addMultiples_addMultiples [Ring α] (source : Fin m) (factor : Fin m → Option α)
    (kept : factor source = none) (g : Grid α m n) :
    (g.addMultiples source fun i => (factor i).map (- ·)).addMultiples source factor = g := by
  apply ext
  intro r c
  simp only [get_addMultiples, kept, Option.map_none]
  cases factor r with
  | none => rfl
  | some f =>
    show g.get r c + -f * g.get source c + f * g.get source c = g.get r c
    rw [neg_mul, neg_add_cancel_right]

/-- Whether the second grid is an invertible matrix times the first one. -/
def RowEquivalent [CommRing α] (g h : Grid α m n) : Prop :=
  ∃ change : (Matrix (Fin m) (Fin m) α)ˣ, h.toMatrix = change.val * g.toMatrix

namespace RowEquivalent

section Ring

variable [CommRing α] {g h k : Grid α m n}

theorem refl (g : Grid α m n) : RowEquivalent g g :=
  ⟨1, by rw [Units.val_one, Matrix.one_mul]⟩

theorem symm (related : RowEquivalent g h) : RowEquivalent h g := by
  obtain ⟨change, same⟩ := related
  exact ⟨change⁻¹, by rw [same, ← Matrix.mul_assoc, Units.inv_mul, Matrix.one_mul]⟩

theorem trans (first : RowEquivalent g h) (second : RowEquivalent h k) : RowEquivalent g k := by
  obtain ⟨early, same⟩ := first
  obtain ⟨late, equal⟩ := second
  exact ⟨late * early, by rw [equal, same, Units.val_mul, Matrix.mul_assoc]⟩

theorem of_mul {forward back : Grid α m m} (undone : forward.mul back = identity m)
    (g : Grid α m n) : RowEquivalent g (forward.mul g) := by
  have left := congrArg toMatrix undone
  have right := congrArg toMatrix (mul_eq_identity_comm undone)
  rw [toMatrix_mul, toMatrix_identity] at left right
  exact ⟨⟨forward.toMatrix, back.toMatrix, left, right⟩, toMatrix_mul forward g⟩

theorem swapRows (i j : Fin m) (g : Grid α m n) : RowEquivalent g (g.swapRows i j) := by
  have undone : ((identity m).swapRows i j).mul ((identity m : Grid α m m).swapRows i j) =
      identity m := by
    rw [swapRows_mul, identity_mul, swapRows_swapRows]
  have moved := of_mul undone g
  rwa [swapRows_mul, identity_mul] at moved

theorem addMultiples (source : Fin m) (factor : Fin m → Option α)
    (kept : factor source = none) (g : Grid α m n) :
    RowEquivalent g (g.addMultiples source factor) := by
  have undone : ((identity m).addMultiples source factor).mul
      ((identity m).addMultiples source fun i => (factor i).map (- ·)) = identity m := by
    rw [addMultiples_mul, identity_mul, addMultiples_addMultiples source factor kept]
  have moved := of_mul undone g
  rwa [addMultiples_mul, identity_mul] at moved

/-- Any choice of columns of row equivalent grids has the same rank. -/
theorem rank_submatrix {p : Nat} (related : RowEquivalent g h) (columns : Fin p → Fin n) :
    (h.toMatrix.submatrix id columns).rank = (g.toMatrix.submatrix id columns).rank := by
  obtain ⟨change, same⟩ := related
  have chosen : h.toMatrix.submatrix id columns =
      change.val * g.toMatrix.submatrix id columns := by
    rw [same]
    ext i j
    simp [Matrix.mul_apply]
  rw [chosen]
  exact Matrix.rank_mul_eq_right_of_isUnit_det _ _ (Matrix.isUnits_det_units change)

end Ring

theorem scaleRow [Field α] (i : Fin m) {factor : α} (nonzero : factor ≠ 0) (g : Grid α m n) :
    RowEquivalent g (g.scaleRow i factor) := by
  have undone : ((identity m).scaleRow i factor).mul ((identity m).scaleRow i factor⁻¹) =
      identity m := by
    rw [scaleRow_mul, identity_mul, scaleRow_scaleRow i nonzero]
  have moved := of_mul undone g
  rwa [scaleRow_mul, identity_mul] at moved

end RowEquivalent

/-- A vector with one more component, so that an augmented grid multiplies it to the sides of its
equations set against each other. -/
def homogeneous [CommRing α] (x : Fin n → α) : Grid α (n + 1) 1 :=
  ofFn fun j _ => Fin.lastCases (-1) x j

/-- By how much the left-hand side of a row of an augmented grid exceeds its constant. -/
def residual [CommRing α] (g : Grid α m (n + 1)) (x : Fin n → α) (i : Fin m) : α :=
  (g.mul (homogeneous x)).get i (Fin.last 0)

theorem residual_eq [CommRing α] (g : Grid α m (n + 1)) (x : Fin n → α) (i : Fin m) :
    g.residual x i = ∑ j : Fin n, g.get i j.castSucc * x j - g.get i (Fin.last n) := by
  simp only [residual, get_mul_eq_sum, homogeneous, get_ofFn]
  rw [Fin.sum_univ_castSucc]
  simp only [Fin.lastCases_castSucc, Fin.lastCases_last, mul_neg, mul_one, sub_eq_add_neg]

def Satisfies [CommRing α] (g : Grid α m (n + 1)) (x : Fin n → α) : Prop :=
  ∀ i, g.residual x i = 0

theorem RowEquivalent.satisfies [CommRing α] {g h : Grid α m (n + 1)}
    (related : RowEquivalent g h) {x : Fin n → α} (solved : g.Satisfies x) : h.Satisfies x := by
  obtain ⟨change, same⟩ := related
  have zero : (g.mul (homogeneous x)).toMatrix = 0 := by
    ext i j
    rw [Subsingleton.elim j 0]
    exact solved i
  have moved : (h.mul (homogeneous x)).toMatrix = 0 := by
    rw [toMatrix_mul, same, Matrix.mul_assoc, ← toMatrix_mul, zero, Matrix.mul_zero]
  intro i
  exact congrFun (congrFun moved i) 0

theorem RowEquivalent.satisfies_iff [CommRing α] {g h : Grid α m (n + 1)}
    (related : RowEquivalent g h) {x : Fin n → α} : h.Satisfies x ↔ g.Satisfies x :=
  ⟨related.symm.satisfies, related.satisfies⟩

end MatrixCalculator.Grid
