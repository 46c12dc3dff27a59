import MatrixCalculator.Grid.Arithmetic
import MatrixCalculator.Grid.RowOperation
import Mathlib.LinearAlgebra.Matrix.NonsingularInverse

/-! Grids as matrices. Products of grids are products of matrices, and a row operation on the
left factor of a product is a row operation on the product. -/
namespace MatrixCalculator.Grid

deriving instance DecidableEq for Grid

variable {α : Type} {m n p : Nat}

def toMatrix (g : Grid α m n) : Matrix (Fin m) (Fin n) α :=
  Matrix.of g.get

@[simp] theorem toMatrix_apply (g : Grid α m n) (i : Fin m) (j : Fin n) :
    g.toMatrix i j = g.get i j :=
  rfl

theorem toMatrix_injective : Function.Injective (toMatrix : Grid α m n → Matrix _ _ α) := by
  intro g h same
  apply ext
  intro i j
  exact congrFun (congrFun same i) j

theorem mem_zip_toList (g h : Grid α m n) (pair : α × α) :
    pair ∈ g.toList.zip h.toList ↔ ∃ i j, pair = (g.get i j, h.get i j) := by
  simp only [List.mem_iff_getElem, List.getElem_zip, toList]
  constructor
  · rintro ⟨k, inside, rfl⟩
    have bound : k < m * n := by simpa using inside
    refine ⟨rowAt ⟨k, bound⟩, colAt ⟨k, bound⟩, ?_⟩
    simp [get, offset_rowAt_colAt]
  · rintro ⟨i, j, rfl⟩
    exact ⟨offset i j, by simp, rfl⟩

theorem foldl_add_eq_sum [AddCommMonoid α] (f : Fin n → α) :
    (List.finRange n).foldl (fun total k => total + f k) 0 = ∑ k, f k := by
  rw [Fin.sum_univ_def, List.sum_eq_foldl, List.foldl_map]

theorem get_mul_eq_sum [NonUnitalNonAssocSemiring α] (g : Grid α m n) (h : Grid α n p)
    (i : Fin m) (j : Fin p) : (g.mul h).get i j = ∑ k, g.get i k * h.get k j := by
  rw [get_mul, foldl_add_eq_sum]

@[simp] theorem toMatrix_mul [NonUnitalNonAssocSemiring α] (g : Grid α m n) (h : Grid α n p) :
    (g.mul h).toMatrix = g.toMatrix * h.toMatrix := by
  ext i j
  rw [toMatrix_apply, get_mul_eq_sum, Matrix.mul_apply]
  rfl

@[simp] theorem toMatrix_identity [Zero α] [One α] :
    (identity n : Grid α n n).toMatrix = 1 := by
  ext i j
  rw [toMatrix_apply, get_identity, Matrix.one_apply]

theorem identity_mul [NonAssocSemiring α] (g : Grid α m n) : (identity m).mul g = g := by
  apply toMatrix_injective
  rw [toMatrix_mul, toMatrix_identity, Matrix.one_mul]

theorem mul_identity [NonAssocSemiring α] (g : Grid α m n) : g.mul (identity n) = g := by
  apply toMatrix_injective
  rw [toMatrix_mul, toMatrix_identity, Matrix.mul_one]

theorem mul_mul [NonUnitalSemiring α] {q : Nat} (g : Grid α m n) (h : Grid α n p)
    (k : Grid α p q) : (g.mul h).mul k = g.mul (h.mul k) := by
  apply toMatrix_injective
  simp only [toMatrix_mul, Matrix.mul_assoc]

theorem mul_eq_identity_comm [CommRing α] {g h : Grid α n n} (left : g.mul h = identity n) :
    h.mul g = identity n := by
  apply toMatrix_injective
  have one := congrArg toMatrix left
  simp only [toMatrix_mul, toMatrix_identity] at one ⊢
  exact mul_eq_one_comm.mp one

theorem get_swapRows_swap (i j r : Fin m) (c : Fin n) (g : Grid α m n) :
    (g.swapRows i j).get r c = g.get (Equiv.swap i j r) c := by
  rw [get_swapRows, Equiv.swap_apply_def]

theorem swapRows_mul [NonUnitalNonAssocSemiring α] (i j : Fin m) (g : Grid α m n)
    (h : Grid α n p) : (g.swapRows i j).mul h = (g.mul h).swapRows i j := by
  apply ext
  intro r c
  simp only [get_mul_eq_sum, get_swapRows]

theorem scaleRow_mul [NonUnitalCommSemiring α] (i : Fin m) (factor : α) (g : Grid α m n)
    (h : Grid α n p) : (g.scaleRow i factor).mul h = (g.mul h).scaleRow i factor := by
  apply ext
  intro r c
  simp only [get_mul_eq_sum, get_scaleRow]
  split
  · rw [Finset.sum_mul]
    exact Finset.sum_congr rfl fun k _ => mul_right_comm _ _ _
  · rfl

theorem addMultiples_mul [NonUnitalSemiring α] (source : Fin m) (factor : Fin m → Option α)
    (g : Grid α m n) (h : Grid α n p) :
    (g.addMultiples source factor).mul h = (g.mul h).addMultiples source factor := by
  apply ext
  intro r c
  simp only [get_mul_eq_sum, get_addMultiples]
  split
  · rfl
  · rw [Finset.mul_sum, ← Finset.sum_add_distrib]
    refine Finset.sum_congr rfl fun k _ => ?_
    rw [add_mul, mul_assoc]

end MatrixCalculator.Grid
