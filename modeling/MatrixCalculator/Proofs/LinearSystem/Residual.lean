import MatrixCalculator.DenseMatrix
import MatrixCalculator.Proofs.LinearSystem.Rank
import Mathlib.Data.List.Sort

/-! How well a reported solution solves its system. If every unknown has a pivot, the two sides
of each equation differ by a number that counts as zero. -/
namespace MatrixCalculator

/-- Two matrices of one shape are approximately equal if all their cells are. -/
theorem DenseMatrix.approxEqual_ofGrid_iff {α : Type} [Scalar α] {m n : Nat} (g h : Grid α m n) :
    (ofGrid g).approxEqual (ofGrid h) = true ↔
      ∀ i j, nearlyEqual (g.get i j) (h.get i j) = true := by
  have cells : (ofGrid g).approxEqual (ofGrid h) = true ↔
      ∀ pair ∈ g.toList.zip h.toList, nearlyEqual pair.1 pair.2 = true := by
    simp [approxEqual, ofGrid, toList]
  rw [cells]
  constructor
  · intro close i j
    exact close _ ((Grid.mem_zip_toList g h _).mpr ⟨i, j, rfl⟩)
  · intro close pair member
    obtain ⟨i, j, rfl⟩ := (Grid.mem_zip_toList g h pair).mp member
    exact close i j

namespace LinearSystem

variable {m n : Nat}

def approximatelySolves {α : Type} [Scalar α] (s : LinearSystem α) (x : Grid α s.unknowns 1) :
    Bool :=
  (DenseMatrix.ofGrid (s.coefficients.mul x)).approxEqual (DenseMatrix.ofGrid s.constants)

theorem solves_iff_of_inverse {s : LinearSystem ℚ} (same : s.equations = s.unknowns)
    {inverse : Grid ℚ s.unknowns s.unknowns}
    (left : inverse.mul (s.coefficients.cast same rfl) = Grid.identity s.unknowns)
    (right : (s.coefficients.cast same rfl).mul inverse = Grid.identity s.unknowns)
    (x : Grid ℚ s.unknowns 1) :
    s.Solves x ↔ x = inverse.mul (s.constants.cast same rfl) := by
  obtain ⟨equations, unknowns, coefficients, constants⟩ := s
  dsimp only at same
  subst same
  simp only [Grid.cast_rfl] at left right ⊢
  constructor
  · intro solved
    have solved : coefficients.mul x = constants := solved
    rw [← solved, ← Grid.mul_mul, left, Grid.identity_mul]
  · intro product
    show coefficients.mul x = constants
    rw [product, ← Grid.mul_mul, right, Grid.identity_mul]

theorem pivots_eq_finRange {initial : Grid ℚ m (n + 1)} {k : Nat} {reduced : Reduction ℚ m n}
    {pivots : List (Fin n)} (echelon : Reduction.Echelon initial k reduced pivots)
    (full : reduced.placed = n) : pivots = List.finRange n := by
  have distinct : pivots.Nodup := echelon.ascending.imp fun less => less.ne
  have all : pivots.toFinset = Finset.univ := by
    apply Finset.eq_univ_of_card
    rw [List.toFinset_card_of_nodup distinct, echelon.count, full, Fintype.card_fin]
  have permuted : pivots.Perm (List.finRange n) := by
    refine (List.perm_ext_iff_of_nodup distinct (List.nodup_finRange n)).mpr fun c => ?_
    rw [← List.mem_toFinset, all]
    simp
  exact permuted.eq_of_pairwise (fun _ _ _ _ before after => absurd after (lt_asymm before)) echelon.ascending
    (List.pairwise_lt_finRange n)

/-- The vector that gives every pivot column the constant of its row and the others zero. -/
def particular (reduced : Reduction ℚ m n) (pivots : List (Fin n))
    (rows : pivots.length ≤ m) (c : Fin n) : ℚ :=
  ∑ q : Fin pivots.length,
    if pivots[q] = c then reduced.grid.get (Fin.castLE rows q) (Fin.last n) else 0

theorem residual_particular {initial : Grid ℚ m (n + 1)} {k : Nat} {reduced : Reduction ℚ m n}
    {pivots : List (Fin n)} (echelon : Reduction.Echelon initial k reduced pivots)
    (rows : pivots.length ≤ m) (i : Fin m) :
    reduced.grid.residual (particular reduced pivots rows) i =
      if i.val < reduced.placed then 0 else -reduced.grid.get i (Fin.last n) := by
  have unit (q : Fin pivots.length) :
      reduced.grid.get i (pivots[q]).castSucc = if i.val = q.val then 1 else 0 :=
    echelon.unit q.val pivots[q] (List.getElem?_eq_getElem q.isLt) i
  have total : ∑ j, reduced.grid.get i j.castSucc * particular reduced pivots rows j =
      ∑ q : Fin pivots.length, if i.val = q.val then
        reduced.grid.get (Fin.castLE rows q) (Fin.last n) else 0 := by
    simp only [particular, Finset.mul_sum, mul_ite, mul_zero]
    rw [Finset.sum_comm]
    refine Finset.sum_congr rfl fun q _ => ?_
    rw [Finset.sum_ite_eq, if_pos (Finset.mem_univ _), unit, ite_mul, one_mul, zero_mul]
  rw [Grid.residual_eq, total]
  split_ifs with inside
  · have inside : i.val < pivots.length := echelon.count ▸ inside
    rw [Finset.sum_eq_single ⟨i, inside⟩, if_pos rfl]
    · exact sub_self _
    · intro q _ other
      exact if_neg fun same => other (Fin.ext same.symm)
    · intro absent
      exact absurd (Finset.mem_univ _) absent
  · rw [Finset.sum_eq_zero, zero_sub]
    intro q _
    have := echelon.count
    exact if_neg (by omega)

/-- If every column has a pivot, the constants of the pivot rows are that vector. -/
theorem particular_of_full {initial : Grid ℚ m (n + 1)} {k : Nat} {reduced : Reduction ℚ m n}
    {pivots : List (Fin n)} (echelon : Reduction.Echelon initial k reduced pivots)
    (full : reduced.placed = n) (rows : pivots.length ≤ m) {x : Fin n → ℚ}
    (read : ∀ (j : Fin n) (i : Fin m), i.val = j.val → x j = reduced.grid.get i (Fin.last n)) :
    particular reduced pivots rows = x := by
  have all := pivots_eq_finRange echelon full
  subst all
  funext c
  have inside : c.val < (List.finRange n).length := by simp
  rw [particular, Finset.sum_eq_single ⟨c, inside⟩, if_pos (by simp)]
  · exact (read c _ rfl).symm
  · intro q _ other
    refine if_neg fun same => other (Fin.ext ?_)
    simp [← same]
  · intro absent
    exact absurd (Finset.mem_univ _) absent

/-- If every unknown has a pivot, a reported solution leaves residuals that count as zero. -/
theorem isZero_residual {s : LinearSystem ℚ} (general : s.solvedByInverse = false) {rank : Nat}
    {x : Grid ℚ s.unknowns 1} (answered : s.solve.outcome = .ok ⟨rank, .determined x⟩)
    (full : s.pivotCount = s.unknowns) (i : Fin s.equations) :
    isZero ((s.coefficients.mul x).get i 0 - s.constants.get i 0) = true := by
  obtain ⟨reduced, found, reached, same, classified⟩ := solve_of_not_solvedByInverse general
  obtain ⟨final, arrived, ⟨origin, follows⟩, pivots, echelon⟩ := s.reduce_ok
  cases Except.ok.inj (reached.symm.trans arrived)
  cases Except.ok.inj (same.symm.trans answered)
  rw [pivotCount_of_reduce general reached] at full
  cases classified with
  | determined absent complete x read =>
    have rows : pivots.length ≤ s.equations := echelon.count.trans_le echelon.fits
    have residual := residual_particular echelon rows
    rw [particular_of_full echelon full rows read] at residual
    have solved (q : Fin s.equations) (placed : q.val < reduced.placed) :
        reduced.grid.residual (fun j => x.get j 0) q = 0 := by
      rw [residual, if_pos placed]
    have moved := follows _ solved (origin.symm i)
    rw [Equiv.apply_symm_apply, residual_augmented, column_get, residual] at moved
    rw [← moved]
    split_ifs with inside
    · exact isZero_zero
    · have zero := @contradiction_eq_none _ _ _ absent (origin.symm i) (by omega)
      rw [isZero_iff, abs_neg]
      exact (isZero_iff _).mp zero

/-- A solution reported for a system in which every unknown has a pivot solves every equation up
to a number that counts as zero, and exactly if it comes from an inverse. It passes for a
solution also by comparison of the two sides, unless two sides are both small and differ. -/
theorem approximatelySolves_of_determined {s : LinearSystem ℚ} {rank : Nat}
    {x : Grid ℚ s.unknowns 1} (answered : s.solve.outcome = .ok ⟨rank, .determined x⟩)
    (full : s.pivotCount = s.unknowns) :
    (∀ i, isZero ((s.coefficients.mul x).get i 0 - s.constants.get i 0) = true) ∧
      (s.solvedByInverse = true → s.Solves x) ∧
      ((∀ i, (s.coefficients.mul x).get i 0 = 0 ∨ s.constants.get i 0 = 0 ∨
        1 / 100 ≤ |(s.coefficients.mul x).get i 0| + |s.constants.get i 0|) →
        s.approximatelySolves x = true) := by
  have exact : s.solvedByInverse = true → s.Solves x := by
    intro direct
    obtain ⟨same, inverse, left, right, found⟩ := solve_of_solvedByInverse direct
    cases Except.ok.inj (found.symm.trans answered)
    exact (solves_iff_of_inverse same left right _).mpr rfl
  have close (i : Fin s.equations) :
      isZero ((s.coefficients.mul x).get i 0 - s.constants.get i 0) = true := by
    cases path : s.solvedByInverse with
    | true =>
      have solved : s.coefficients.mul x = s.constants := exact path
      rw [solved, sub_self]
      exact isZero_zero
    | false => exact isZero_residual path answered full i
  refine ⟨close, exact, fun sized => ?_⟩
  refine (DenseMatrix.approxEqual_ofGrid_iff _ _).mpr fun i j => ?_
  rw [Subsingleton.elim j 0]
  exact nearlyEqual_of_isZero_sub (close i) (sized i)

/-- Three equations for two unknowns, the last of which almost follows from the others. -/
def nearlyRedundant : LinearSystem ℚ where
  equations := 3
  unknowns := 2
  coefficients := Grid.ofFn fun i j => if i.val = j.val ∨ i.val = 2 then 1 else 0
  constants := Grid.ofFn fun i _ => if i.val = 2 then 3 + 5 / 10 ^ 13 else i.val + 1

theorem nearlyRedundant_solution :
    nearlyRedundant.solve.outcome = .ok ⟨2, .determined (column fun j => j.val + 1)⟩ ∧
      nearlyRedundant.pivotCount = 2 ∧
      nearlyRedundant.approximatelySolves (column fun j => j.val + 1) = true := by
  have answered : nearlyRedundant.solve.outcome =
      .ok ⟨2, .determined (column fun j => j.val + 1)⟩ := by decide +kernel
  have full : nearlyRedundant.pivotCount = 2 := by decide +kernel
  refine ⟨answered, full, (approximatelySolves_of_determined answered full).2.2 ?_⟩
  decide +kernel

/-- One unknown that two equations set to different small numbers. -/
def disagreeing : LinearSystem ℚ where
  equations := 2
  unknowns := 1
  coefficients := Grid.ofFn fun _ _ => 1
  constants := Grid.ofFn fun i _ => if i.val = 0 then 1 / 10 ^ 13 else 5 / 10 ^ 13

/-- A reported solution whose residual counts as zero and that fails the comparison of the two
sides, although the only unknown has a pivot. -/
theorem disagreeing_solution :
    disagreeing.solve.outcome = .ok ⟨1, .determined (column fun _ => 1 / 10 ^ 13)⟩ ∧
      disagreeing.pivotCount = 1 ∧
      disagreeing.approximatelySolves (column fun _ => 1 / 10 ^ 13) = false := by
  decide +kernel

/-- Two equations for two unknowns. The first column counts as zero, but clearing the second one
doubles the number in its last row. -/
def overcounted : LinearSystem ℚ where
  equations := 2
  unknowns := 2
  coefficients := ⟨#v[9 / 10 ^ 13, 1, -9 / 10 ^ 13, 1]⟩
  constants := column fun _ => 1

/-- Without a pivot for every unknown a reported solution need not solve anything: the rank that
is read off the reduced grid is full, but only one pivot has been found. -/
theorem overcounted_solution :
    overcounted.solve.outcome = .ok ⟨2, .determined (column ![1, 0])⟩ ∧
      overcounted.pivotCount = 1 ∧
      (∀ i, isZero ((overcounted.coefficients.mul (column ![1, 0])).get i 0 -
        overcounted.constants.get i 0) = false) ∧
      overcounted.approximatelySolves (column ![1, 0]) = false ∧
      overcounted.coefficients.mul (column ![0, 1]) = overcounted.constants := by
  decide +kernel

end LinearSystem
end MatrixCalculator
