import MatrixCalculator.Proofs.DenseMatrix.OfGrid
import MatrixCalculator.Proofs.Grid.Inverse
import Mathlib.LinearAlgebra.Matrix.Block

/-! Determinants in exact arithmetic. Each step of the elimination changes the sum over all
permutations of the rows by the sign of its exchange at most, and a triangular grid has the product
of its diagonal for that sum. So an elimination that finds a pivot in every column computes the
sum, and one that stops at a column without any number left stops at a grid whose sum is zero. -/
namespace MatrixCalculator.Grid

variable {α : Type} {n : Nat}

/-- The sum over all permutations of the rows, each product of cells with the sign of its
permutation. -/
def leibniz [CommRing α] (g : Grid α n n) : α :=
  ∑ σ : Equiv.Perm (Fin n), (Equiv.Perm.sign σ : ℤ) * ∏ j, g.get (σ j) j

theorem leibniz_eq_det [CommRing α] (g : Grid α n n) : g.leibniz = g.toMatrix.det :=
  (Matrix.det_apply' g.toMatrix).symm

section Steps

variable [CommRing α]

theorem leibniz_swapRows {i j : Fin n} (apart : i ≠ j) (g : Grid α n n) :
    (g.swapRows i j).leibniz = -g.leibniz := by
  have permuted : (g.swapRows i j).toMatrix = g.toMatrix.submatrix (Equiv.swap i j) id := by
    ext r c
    exact get_swapRows_swap i j r c g
  rw [leibniz_eq_det, leibniz_eq_det, permuted, Matrix.det_permute, Equiv.Perm.sign_swap apart]
  simp

theorem leibniz_addMultiples {source : Fin n} {factor : Fin n → Option α}
    (kept : factor source = none) (g : Grid α n n) :
    (g.addMultiples source factor).leibniz = g.leibniz := by
  rw [leibniz_eq_det, leibniz_eq_det]
  refine Matrix.det_eq_of_forall_row_eq_smul_add_const (fun i => (factor i).getD 0) source
    (by rw [kept]; rfl) fun i j => ?_
  simp only [toMatrix_apply, get_addMultiples]
  cases factor i with
  | none => simp
  | some f => rfl

end Steps

theorem leibniz_cleared (k : Fin n) (g : Grid ℚ n n) :
    (cleared k g).leibniz = if g.pivotRow k k = k then g.leibniz else -g.leibniz := by
  have kept (swapped : Grid ℚ n n) (pivot : ℚ) : factorsBelow k pivot swapped k = none :=
    if_neg (lt_irrefl k)
  rw [cleared, leibniz_addMultiples (kept _ _)]
  split
  · next same => rw [same, swapRows_self]
  · next apart => exact leibniz_swapRows apart g

theorem leibniz_of_zeroBelow {g : Grid ℚ n n} (zeros : ZeroBelow n g) :
    g.leibniz = ((List.finRange n).map fun c => g.get c c).prod := by
  have triangular : g.toMatrix.BlockTriangular id := fun i j lower => zeros i j j.isLt lower
  rw [leibniz_eq_det, Matrix.det_of_isUpperTriangular triangular, Fin.prod_univ_def]
  rfl

/-- A column with zeros from the diagonal downwards behind a triangular front part makes the sum
zero. -/
theorem leibniz_eq_zero {k : Fin n} {g : Grid ℚ n n} (zeros : ZeroBelow k g)
    (column : ∀ i, k ≤ i → g.get i k = 0) : g.leibniz = 0 := by
  -- The rows and columns behind column `k` form one block, every other column a block of its own.
  let block (i : Fin n) : Nat := min i.val (k.val + 1)
  have triangular : g.toMatrix.BlockTriangular block := by
    intro i j lower
    have below : j < i := by
      simp only [block] at lower
      omega
    have front : j.val < k ∨ j = k := by
      simp only [block] at lower
      omega
    rcases front with before | rfl
    · exact zeros i j before below
    · exact column i below.le
  rw [leibniz_eq_det, triangular.det]
  refine Finset.prod_eq_zero (i := block k) (Finset.mem_image_of_mem _ (Finset.mem_univ k)) ?_
  refine Matrix.det_eq_zero_of_row_eq_zero ⟨k, rfl⟩ ?_
  rintro ⟨j, same⟩
  have same : j = k := by
    simp only [block] at same
    omega
  subst same
  exact column j le_rfl

section Run

variable [Scalar α]

/-- The grid as the elimination holds it when it comes to column `k`. -/
def clearedTo (g : Grid α n n) (k : Nat) : Grid α n n :=
  ((List.finRange n).take k).foldl (fun h c => cleared c h) g

/-- The number that the elimination tests for zero in column `k`. -/
def chosenPivot (g : Grid α n n) (k : Fin n) : α :=
  (g.clearedTo k).get ((g.clearedTo k).pivotRow k k) k

theorem clearedTo_succ (g : Grid α n n) (k : Fin n) :
    g.clearedTo (k + 1) = cleared k (g.clearedTo k) := by
  rw [clearedTo, take_finRange_succ, List.foldl_append]
  rfl

end Run

def pivotProduct (g : Grid ℚ n n) (k : Nat) : ℚ :=
  (((List.finRange n).take k).map g.chosenPivot).prod

theorem pivotProduct_succ (g : Grid ℚ n n) (k : Fin n) :
    g.pivotProduct (k + 1) = g.pivotProduct k * g.chosenPivot k := by
  rw [pivotProduct, take_finRange_succ, List.map_append, List.prod_append]
  simp [pivotProduct]

variable {g : Grid ℚ n n} {product : ℚ}

structure Eliminating (g : Grid ℚ n n) (k : Nat) (product : ℚ) : Prop where
  passed : ∀ c : Fin n, c.val < k → isZero (g.chosenPivot c) = false
  zeros : ZeroBelow k (g.clearedTo k)
  diagonal : ∀ c : Fin n, c.val < k → (g.clearedTo k).get c c = g.chosenPivot c
  balance : product * (g.clearedTo k).leibniz = g.leibniz * g.pivotProduct k

namespace Eliminating

theorem start (g : Grid ℚ n n) : Eliminating g 0 1 where
  passed _ before := absurd before (Nat.not_lt_zero _)
  zeros _ _ before := absurd before (Nat.not_lt_zero _)
  diagonal _ before := absurd before (Nat.not_lt_zero _)
  balance := by simp [clearedTo, pivotProduct, mul_comm]

theorem step {k : Fin n} (inv : Eliminating g k product)
    (nonzero : isZero (g.chosenPivot k) = false) :
    Eliminating g (k + 1)
      ((if (g.clearedTo k).pivotRow k k = k then product else -product) * g.chosenPivot k) := by
  refine ⟨?_, ?_, ?_, ?_⟩
  · intro c before
    rcases Nat.lt_succ_iff_lt_or_eq.mp before with earlier | same
    · exact inv.passed c earlier
    · rw [Fin.ext same]
      exact nonzero
  · rw [clearedTo_succ]
    exact cleared_zeroBelow (ne_zero_of_isZero_false nonzero) inv.zeros
  · intro c before
    rw [clearedTo_succ]
    rcases Nat.lt_succ_iff_lt_or_eq.mp before with earlier | same
    · rw [get_cleared_before earlier]
      exact inv.diagonal c earlier
    · rw [Fin.ext same]
      exact get_cleared_self k (g.clearedTo k)
  · rw [clearedTo_succ, leibniz_cleared, pivotProduct_succ, ← mul_assoc, ← inv.balance]
    split <;> ring

theorem pivotProduct_ne_zero {k : Nat} (inv : Eliminating g k product) : g.pivotProduct k ≠ 0 := by
  refine List.prod_ne_zero fun zero => ?_
  obtain ⟨c, member, vanishes⟩ := List.mem_map.mp zero
  exact ne_zero_of_isZero_false (inv.passed c (mem_take_finRange.mp member)) vanishes

theorem product_eq (inv : Eliminating g n product) : product = g.leibniz := by
  have last : (g.clearedTo n).leibniz = g.pivotProduct n := by
    rw [leibniz_of_zeroBelow inv.zeros, pivotProduct, List.take_of_length_le (by simp)]
    exact congrArg List.prod (List.map_congr_left fun c _ => inv.diagonal c c.isLt)
  have balance := inv.balance
  rw [last] at balance
  exact mul_right_cancel₀ inv.pivotProduct_ne_zero balance

/-- The largest number of a column is its pivot, so without it there is none at all. -/
theorem leibniz_eq_zero {k : Fin n} (inv : Eliminating g k product) (zero : g.chosenPivot k = 0) :
    g.leibniz = 0 := by
  have singular : (g.clearedTo k).leibniz = 0 :=
    Grid.leibniz_eq_zero inv.zeros fun i below => eq_zero_of_pivotRow zero below
  have balance := inv.balance
  rw [singular, mul_zero] at balance
  exact (mul_eq_zero.mp balance.symm).resolve_right inv.pivotProduct_ne_zero

end Eliminating

/-- How an elimination ends: behind the last column, or at the first one without a pivot. -/
inductive Eliminated (g : Grid ℚ n n) : Elimination ℚ n → Prop
  | complete (pivots : ∀ c, isZero (g.chosenPivot c) = false) : Eliminated g ⟨g.leibniz, none⟩
  | stopped (k : Fin n) (passed : ∀ c < k, isZero (g.chosenPivot c) = false)
      (zero : isZero (g.chosenPivot k) = true)
      (singular : g.chosenPivot k = 0 → g.leibniz = 0) : Eliminated g ⟨0, some k⟩

theorem eliminateFrom_clearedTo (k : Nat) (bound : k ≤ n) (inv : Eliminating g k product) :
    ∃ elimination, eliminateFrom ((List.finRange n).drop k) (g.clearedTo k) product =
      .ok elimination ∧ Eliminated g elimination := by
  induction left : n - k generalizing k product with
  | zero =>
    obtain rfl : k = n := by omega
    rw [List.drop_of_length_le (by simp)]
    refine ⟨⟨product, none⟩, rfl, ?_⟩
    rw [inv.product_eq]
    exact .complete fun c => inv.passed c c.isLt
  | succ left ih =>
    have inside : k < n := by omega
    let c : Fin n := ⟨k, inside⟩
    have column : (List.finRange n).drop k = c :: (List.finRange n).drop (k + 1) := by
      rw [List.drop_eq_getElem_cons (by simpa using inside)]
      simp [c]
    rw [column]
    cases zero : isZero (g.chosenPivot c) with
    | true =>
      refine ⟨⟨0, some c⟩, ?_, .stopped c inv.passed zero fun vanishes => ?_⟩
      · rw [chosenPivot] at zero
        simp only [eliminateFrom]
        rw [if_pos zero]
      · exact Eliminating.leibniz_eq_zero (k := c) inv vanishes
    | false =>
      have next := Eliminating.step (k := c) inv zero
      obtain ⟨elimination, reached, ended⟩ := ih (k + 1) inside next (by omega)
      refine ⟨elimination, ?_, ended⟩
      rw [← reached]
      exact (eliminateFrom_cons zero _ product).trans (by rw [← clearedTo_succ g c]; rfl)

/-- A determinant whose elimination finds a pivot in every column is the signed sum over all
permutations. The elimination stops at the first column whose largest number left counts as zero
and then gives zero; if that number is zero exactly, so is the sum. -/
theorem determinant_leibniz (g : Grid ℚ n n) :
    ∃ elimination, g.eliminate = .ok elimination ∧
      (DenseMatrix.ofGrid g).determinant.outcome = .ok elimination.determinant ∧
      (elimination.pivotless = none ↔ ∀ c, isZero (g.chosenPivot c) = false) ∧
      (elimination.pivotless = none → elimination.determinant = g.leibniz) ∧
      ∀ k, elimination.pivotless = some k → elimination.determinant = 0 ∧
        isZero (g.chosenPivot k) = true ∧ (∀ c < k, isZero (g.chosenPivot c) = false) ∧
        (g.chosenPivot k = 0 → g.leibniz = 0) := by
  obtain ⟨elimination, reached, ended⟩ := eliminateFrom_clearedTo 0 (Nat.zero_le n) (.start g)
  have computed : g.eliminate = .ok elimination := reached
  refine ⟨elimination, computed, ?_, ?_⟩
  · rw [DenseMatrix.determinant_ofGrid, determinant_outcome, computed]
    rfl
  · cases ended with
    | complete pivots =>
      refine ⟨⟨fun _ => pivots, fun _ => rfl⟩, fun _ => rfl, ?_⟩
      intro k absent
      contradiction
    | stopped k passed zero singular =>
      refine ⟨⟨fun absent => by contradiction, fun pivots => ?_⟩, fun absent => by contradiction, ?_⟩
      · rw [pivots k] at zero
        contradiction
      · rintro _ ⟨⟩
        exact ⟨rfl, zero, passed, singular⟩

deriving instance DecidableEq for Elimination

/-- Every pivot but the last is brought up from a lower row, which makes two exchanges. -/
def cyclic : Grid ℚ 3 3 :=
  ⟨#v[0, 2, 1, 1 / 2, 0, 3, 5, 0, 1]⟩

def proportional : Grid ℚ 2 2 :=
  ⟨#v[1, 2, 3, 6]⟩

theorem cyclic_proportional_determinants :
    (DenseMatrix.ofGrid cyclic).determinant.outcome = .ok 29 ∧ cyclic.leibniz = 29 ∧
      (DenseMatrix.ofGrid proportional).determinant.outcome = .ok 0 ∧
      proportional.leibniz = 0 := by
  have complete : cyclic.eliminate = .ok ⟨29, none⟩ := by decide +kernel
  have stopped : proportional.eliminate = .ok ⟨0, some 1⟩ := by decide +kernel
  obtain ⟨_, first, computed, _, whole, _⟩ := determinant_leibniz cyclic
  obtain ⟨_, second, zero, _, _, early⟩ := determinant_leibniz proportional
  cases Except.ok.inj (first.symm.trans complete)
  cases Except.ok.inj (second.symm.trans stopped)
  exact ⟨computed, (whole rfl).symm, zero, (early 1 rfl).2.2.2 (by decide +kernel)⟩

end MatrixCalculator.Grid
