import MatrixCalculator.Proofs.LinearSystem.Classification

/-! Systems with as many equations as unknowns whose determinant does not count as zero. The
reduction of such a system and the elimination for its determinant run in step: below the pivots
that have been placed both hold the same rows, so they choose and test the same pivots. The
reduction then has a pivot for every unknown and shows the solution that the inverse gives. -/
namespace MatrixCalculator.LinearSystem

variable {n : Nat}

namespace Reduction

/-- Whether the reduction of an augmented grid has placed `k` pivots and holds, below them, the
rows of a grid that still has a pivot in each column from `k` on. -/
structure InStep (k : Nat) (g : Grid ℚ n n) (s : Reduction ℚ n n) : Prop where
  placed : s.placed = k
  pivots : Grid.HasPivots ((List.finRange n).drop k) g
  rows : ∀ i j : Fin n, k ≤ i.val → s.grid.get i j.castSucc = g.get i j

theorem InStep.candidate_eq {k : Fin n} {g : Grid ℚ n n} {s : Reduction ℚ n n}
    (related : InStep k g s) (left : s.placed < n) : s.candidate k left = g.pivotRow k k := by
  have start : (⟨s.placed, left⟩ : Fin n) = k := Fin.ext related.placed
  rw [candidate, start]
  exact Grid.pivotRow_congr fun r below => related.rows r k below

/-- Rows below a pivot are combined with it alike, whether or not it has been made one before. -/
theorem InStep.step {k : Fin n} {g : Grid ℚ n n} {s next : Reduction ℚ n n}
    (related : InStep k g s) (moved : Step s k next) : InStep (k + 1) (Grid.cleared k g) next := by
  have left : s.placed < n := related.placed.trans_lt k.isLt
  have candidate := related.candidate_eq left
  have low : k ≤ g.pivotRow k k := Grid.start_le_pivotRow g k k
  obtain ⟨nonzero, later⟩ := related.pivots.uncons
  cases moved with
  | exhausted full => exact absurd left (Nat.not_lt.mpr full)
  | skipped _ zero =>
    rw [candidate, related.rows _ k low, nonzero] at zero
    contradiction
  | advanced _ _ =>
    refine ⟨congrArg (· + 1) related.placed, later, fun i j below => ?_⟩
    have start : (⟨s.placed, left⟩ : Fin n) = k := Fin.ext related.placed
    have lower : k < i := below
    have exchanged : k ≤ Equiv.swap (g.pivotRow k k) k i := by
      rw [Equiv.swap_apply_def]
      split_ifs
      · exact le_refl _
      · exact low
      · exact lower.le
    show (pivoted ⟨s.placed, left⟩ (s.candidate k left) k s.grid).get i j.castSucc = _
    rw [start, candidate, get_pivoted, if_neg lower.ne', Grid.get_cleared, if_pos lower,
      related.rows _ j exchanged, related.rows _ k exchanged, related.rows _ j low,
      related.rows _ k low]
    ring

theorem run_placed {g : Grid ℚ n n} {initial : Grid ℚ n (n + 1)}
    (pivots : Grid.HasPivots (List.finRange n) g)
    (same : ∀ i j : Fin n, initial.get i j.castSucc = g.get i j) :
    ∃ final, run (List.finRange n) ⟨initial, 0⟩ = .ok final ∧ final.placed = n := by
  have start : ∃ g, InStep 0 g ⟨initial, 0⟩ := ⟨g, rfl, pivots, fun i j _ => same i j⟩
  obtain ⟨final, reached, _, last⟩ := Grid.foldlM_finRange Reduction.step (∃ g, InStep · g ·)
    (fun k s ⟨g, related⟩ => by
      obtain ⟨next, moved, kind⟩ := step_ok s k
      exact ⟨next, moved, _, related.step kind⟩) start
  exact ⟨final, reached, last.placed⟩

end Reduction

/-- A reduced square system with a pivot for every unknown shows its only solution. -/
theorem classified_of_placed {s : LinearSystem ℚ} (same : s.equations = s.unknowns)
    {reduced : Reduction ℚ s.equations s.unknowns} (reached : s.reduce = .ok reduced)
    (placed : reduced.placed = s.unknowns) {found : Solution ℚ s.unknowns}
    (classified : Classified reduced.grid found) :
    found.rank = s.unknowns ∧ ∃ x, found.outcome = .determined x ∧ s.Solves x := by
  obtain ⟨final, arrived, _, pivots, echelon⟩ := s.reduce_ok
  cases Except.ok.inj (reached.symm.trans arrived)
  have rank_eq : rank reduced.grid = s.unknowns := by
    have low := placed_le_rank echelon
    have high := rank_le reduced.grid
    omega
  refine ⟨classified.rank_eq.trans rank_eq, ?_⟩
  cases classified with
  | incompatible i conflict =>
    have below := (contradiction_eq_some conflict).1
    have inside := i.isLt
    omega
  | determined absent full x read =>
    have rows : pivots.length ≤ s.equations := echelon.count.trans_le echelon.fits
    have solved := solves_particular echelon rows fun i below => by
      have inside := i.isLt
      omega
    rw [particular_of_full echelon placed rows read, column_get] at solved
    exact ⟨x, rfl, solved⟩
  | indeterminate absent deficient => exact absurd rank_eq deficient

theorem reduce_placed {coefficients : Grid ℚ n n} (constants : Grid ℚ n 1)
    (pivots : Grid.HasPivots (List.finRange n) coefficients) :
    ∃ reduced, reduce ⟨n, n, coefficients, constants⟩ = .ok reduced ∧ reduced.placed = n :=
  Reduction.run_placed pivots fun i j => by simp [augmented]

theorem solvedByInverse_of_determinant {coefficients : Grid ℚ n n} {size : ℚ}
    (computed : coefficients.determinant.outcome = .ok size) (constants : Grid ℚ n 1) :
    solvedByInverse ⟨n, n, coefficients, constants⟩ = !isZero size := by
  simp [solvedByInverse, computed]

theorem solves_iff_eq_mul {coefficients inverse : Grid ℚ n n}
    (left : inverse.mul coefficients = Grid.identity n)
    (right : coefficients.mul inverse = Grid.identity n) (constants x : Grid ℚ n 1) :
    Solves ⟨n, n, coefficients, constants⟩ x ↔ x = inverse.mul constants :=
  solves_iff_of_inverse (s := ⟨n, n, coefficients, constants⟩) rfl left right x

theorem solve_of_determinant {coefficients : Grid ℚ n n} {size : ℚ}
    (computed : coefficients.determinant.outcome = .ok size) (nonzero : isZero size = false)
    (constants : Grid ℚ n 1) :
    ∃ inverse, coefficients.inverse.outcome = .ok inverse ∧
      (solve ⟨n, n, coefficients, constants⟩).outcome =
        .ok ⟨n, .determined (inverse.mul constants)⟩ := by
  obtain ⟨inverse, inverted, left, right⟩ := Grid.inverse_ok computed nonzero
  have direct := solvedByInverse_of_determinant computed constants
  rw [nonzero] at direct
  obtain ⟨same, other, otherLeft, otherRight, answered⟩ := solve_of_solvedByInverse direct
  have solved := (solves_iff_of_inverse same otherLeft otherRight _).mpr rfl
  rw [(solves_iff_eq_mul left right _ _).mp solved] at answered
  exact ⟨inverse, inverted, answered⟩

theorem solveByReduction_of_determinant {coefficients inverse : Grid ℚ n n} {size : ℚ}
    (computed : coefficients.determinant.outcome = .ok size) (nonzero : isZero size = false)
    (inverted : coefficients.inverse.outcome = .ok inverse) (constants : Grid ℚ n 1) :
    (solveByReduction ⟨n, n, coefficients, constants⟩).outcome =
      .ok ⟨n, .determined (inverse.mul constants)⟩ := by
  obtain ⟨other, found, pivots⟩ := Grid.determinant_ok coefficients
  cases Except.ok.inj (found.symm.trans computed)
  obtain ⟨same, reached, left, right⟩ := Grid.inverse_ok computed nonzero
  cases Except.ok.inj (reached.symm.trans inverted)
  obtain ⟨reduced, report, reached, answered, classified⟩ :=
    solveByReduction_ok ⟨n, n, coefficients, constants⟩
  obtain ⟨final, arrived, placed⟩ := reduce_placed constants (pivots nonzero)
  cases Except.ok.inj (reached.symm.trans arrived)
  obtain ⟨rank_eq, x, determined, solved⟩ := classified_of_placed rfl reached placed classified
  obtain ⟨rank, outcome⟩ := report
  dsimp only at rank_eq determined
  rw [answered, rank_eq, determined, (solves_iff_eq_mul left right _ _).mp solved]

/-- A square system whose determinant does not count as zero has the same report from either way
of solving it: the rank is the number of unknowns, and the solution is the product of the inverse
of the coefficients and the constants. -/
theorem solveByReduction_eq_solve {coefficients : Grid ℚ n n} {size : ℚ}
    (computed : coefficients.determinant.outcome = .ok size) (nonzero : isZero size = false)
    (constants : Grid ℚ n 1) :
    ∃ inverse, coefficients.inverse.outcome = .ok inverse ∧
      (solveByReduction ⟨n, n, coefficients, constants⟩).outcome =
        .ok ⟨n, .determined (inverse.mul constants)⟩ ∧
      (solve ⟨n, n, coefficients, constants⟩).outcome =
        .ok ⟨n, .determined (inverse.mul constants)⟩ := by
  obtain ⟨inverse, inverted, answered⟩ := solve_of_determinant computed nonzero constants
  exact ⟨inverse, inverted,
    solveByReduction_of_determinant computed nonzero inverted constants, answered⟩

/-- Coefficients of different sizes with zeros in the diagonal: every pivot but the last is
brought up from a lower row. -/
def staggered : Grid ℚ 3 3 :=
  ⟨#v[0, 2, 1 / 100, 1 / 1000, 0, 0, 3, 0, 1]⟩

theorem staggered_solution :
    staggered.determinant.outcome = .ok (-1 / 500) ∧ isZero (-1 / 500 : ℚ) = false ∧
      ∃ inverse, staggered.inverse.outcome = .ok inverse ∧
        inverse.mul (column ![1, 2, 3]) = column ![2000, 30485 / 1000, -5997] ∧
        (solveByReduction ⟨3, 3, staggered, column ![1, 2, 3]⟩).outcome =
          .ok ⟨3, .determined (inverse.mul (column ![1, 2, 3]))⟩ := by
  have computed : staggered.determinant.outcome = .ok (-1 / 500) := by decide +kernel
  have nonzero : isZero (-1 / 500 : ℚ) = false := by decide +kernel
  have product : staggered.inverse.outcome.map (·.mul (column ![1, 2, 3])) =
      .ok (column ![2000, 30485 / 1000, -5997]) := by decide +kernel
  obtain ⟨inverse, inverted, reduced, _⟩ :=
    solveByReduction_eq_solve computed nonzero (column ![1, 2, 3])
  rw [inverted] at product
  exact ⟨computed, nonzero, inverse, inverted, Except.ok.inj product, reduced⟩

end MatrixCalculator.LinearSystem
