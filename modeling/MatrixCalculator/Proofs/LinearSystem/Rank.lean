import MatrixCalculator.Proofs.LinearSystem.Solving

/-! The rank that a solution reports, against the pivots that were found. The rank is read off
the reduced grid, so it exceeds the number of pivots if numbers that once counted as zero have
grown in the rows below. -/
namespace MatrixCalculator.LinearSystem

variable {m n : Nat}

/-- The row of the last pivot does not count as zero. -/
theorem placed_le_rank {initial : Grid ℚ m (n + 1)} {k : Nat} {reduced : Reduction ℚ m n}
    {pivots : List (Fin n)} (echelon : Reduction.Echelon initial k reduced pivots) :
    reduced.placed ≤ rank reduced.grid := by
  by_contra low
  have last : reduced.placed - 1 < pivots.length := by rw [echelon.count]; omega
  have fits := echelon.fits
  have zero := (rank_le_iff reduced.grid (reduced.placed - 1)).mp (by omega)
    ⟨reduced.placed - 1, by omega⟩ (Nat.le_refl _)
  have pivot := echelon.unit _ _ (List.getElem?_eq_getElem last) ⟨reduced.placed - 1, by omega⟩
  have counted := (zeroRow_iff _ _).mp zero pivots[reduced.placed - 1]
  rw [pivot, if_pos rfl, isZero_one] at counted
  contradiction

/-- Whether all coefficients in the rows from `k` on count as zero when a system has been
reduced. Of a system that is solved by an inverse nothing is asked. -/
def VanishesFrom (s : LinearSystem ℚ) (k : Nat) : Prop :=
  s.solvedByInverse = true ∨ ∃ reduced, s.reduce = .ok reduced ∧
    ∀ i : Fin s.equations, k ≤ i.val →
      ∀ j : Fin s.unknowns, isZero (reduced.grid.get i j.castSucc) = true

theorem rank_le_iff_vanishesFrom {s : LinearSystem ℚ} (general : s.solvedByInverse = false)
    {reduced : Reduction ℚ s.equations s.unknowns} (reached : s.reduce = .ok reduced) (k : Nat) :
    rank reduced.grid ≤ k ↔ s.VanishesFrom k := by
  rw [rank_le_iff]
  simp only [zeroRow_iff, VanishesFrom, general, reached, Except.ok.injEq, exists_eq_left',
    Bool.false_eq_true, false_or]

theorem pivotCount_of_reduce {s : LinearSystem ℚ} (general : s.solvedByInverse = false)
    {reduced : Reduction ℚ s.equations s.unknowns} (reached : s.reduce = .ok reduced) :
    s.pivotCount = reduced.placed := by
  simp [pivotCount, general, reached]

theorem Classified.rank_eq {g : Grid ℚ m (n + 1)} {found : Solution ℚ n}
    (classified : Classified g found) : found.rank = rank g := by
  cases classified <;> rfl

theorem Classified.rank_ne {g : Grid ℚ m (n + 1)} {found : Solution ℚ n}
    (classified : Classified g found) {lines : List (Line ℚ)}
    (many : found.outcome = .indeterminate lines) : found.rank ≠ n := by
  cases classified with
  | incompatible i found => contradiction
  | determined absent full x read => contradiction
  | indeterminate absent deficient => exact deficient

/-- Every system has a solution report, and its rank is at least the number of pivots. It is
that number exactly if the rows below the last pivot count as zero, and there are no more
dependent variables than unknowns exactly if the rows beyond the unknowns do. -/
theorem rank_eq_pivotCount_iff (s : LinearSystem ℚ) :
    ∃ found, s.solve.outcome = .ok found ∧
      s.pivotCount ≤ min s.equations s.unknowns ∧ s.pivotCount ≤ found.rank ∧
      (found.rank = s.pivotCount ↔ s.VanishesFrom s.pivotCount) ∧
      (found.rank ≤ min s.equations s.unknowns ↔ s.VanishesFrom s.unknowns) ∧
      (0 ≤ found.independent ↔ s.VanishesFrom s.unknowns) ∧
      ((∃ lines, found.outcome = .indeterminate lines) →
        (1 ≤ found.independent ↔ s.VanishesFrom s.unknowns)) := by
  cases path : s.solvedByInverse with
  | true =>
    obtain ⟨same, inverse, _, _, answered⟩ := solve_of_solvedByInverse path
    have count : s.pivotCount = s.unknowns := by simp [pivotCount, path]
    refine ⟨_, answered, ?_⟩
    simp [count, same, VanishesFrom, path, Solution.independent]
  | false =>
    obtain ⟨reduced, found, reached, answered, classified⟩ := solve_of_not_solvedByInverse path
    obtain ⟨final, arrived, _, pivots, echelon⟩ := s.reduce_ok
    cases Except.ok.inj (reached.symm.trans arrived)
    have rank_eq := classified.rank_eq
    have low := placed_le_rank echelon
    have fits := echelon.fits
    have narrow := echelon.placed_le
    have high := rank_le reduced.grid
    refine ⟨found, answered, ?_⟩
    simp only [← rank_le_iff_vanishesFrom path reached, pivotCount_of_reduce path reached,
      Solution.independent]
    refine ⟨by omega, by omega, by omega, by omega, by omega, ?_⟩
    rintro ⟨lines, many⟩
    have := classified.rank_ne many
    omega

/-- Three equations for two unknowns. The first column counts as zero, but adding the pivot row
of the second column to the lower rows doubles the numbers in it. -/
def growing : LinearSystem ℚ where
  equations := 3
  unknowns := 2
  coefficients := Grid.ofFn fun i j =>
    if j.val = 1 then 1 else if i.val = 0 then 9 / 10 ^ 13 else -9 / 10 ^ 13
  constants := Grid.ofFn fun _ _ => 1

/-- A rank above the number of pivots, and fewer independent variables than none. -/
theorem growing_rank :
    growing.pivotCount = 1 ∧
      growing.solve.outcome.map (fun found => (found.rank, found.independent, found.outcome.kind)) =
        .ok (3, -1, "compatible indeterminate") := by
  decide +kernel

end MatrixCalculator.LinearSystem
