import MatrixCalculator.Proofs.LinearSystem.Invertible
import MatrixCalculator.Proofs.Value.Division

/-! Solving a square system against dividing by its coefficients from the left. The quotient
exists if the determinant does not count as zero, and then it is the solution that solving
reports. Otherwise there is no quotient, and solving goes by the rank of the reduced system: a
product of small pivots does not keep it from a solution. -/
namespace MatrixCalculator.LinearSystem

open DenseMatrix

variable {n : Nat}

theorem ofValues_ofGrid (positive : 0 < n) (a : Grid ℚ n n) (b : Grid ℚ n 1) :
    ofValues (.matrix (ofGrid a)) (.matrix (ofGrid b)) = .ok ⟨n, n, a, b⟩ := by
  have nonempty : ¬n = 0 := Nat.ne_of_gt positive
  simp [ofValues, ofGrid, nonempty]

/-- The report on a system that two values form, as a value or as the reason why it is none. -/
theorem outcome_solveUniquely {a b : Value ℚ} {s : LinearSystem ℚ} (formed : ofValues a b = .ok s)
    {found : Solution ℚ s.unknowns} (answered : s.solve.outcome = .ok found) :
    (solveUniquely a b).outcome = match found.outcome with
      | .determined x => .ok (.matrix (ofGrid x))
      | .incompatible => .error .incompatible
      | .indeterminate lines =>
        .error (.indeterminate (lines.map Line.text) found.dependent found.independent) := by
  rw [solveUniquely, Calculation.outcome_bind, Calculation.outcome_ofExcept, formed]
  show (s.solve >>= _).outcome = _
  rw [Calculation.outcome_bind, answered]
  obtain ⟨rank, outcome⟩ := found
  cases outcome <;> rfl

theorem leftDivide_ofGrid (a : Grid ℚ n n) (b : Grid ℚ n 1) :
    ((Value.matrix (ofGrid a)).leftDivide (.matrix (ofGrid b))).outcome =
      a.inverse.outcome.map fun inverse => .matrix (ofGrid (inverse.mul b)) := by
  have inverted : (Value.matrix (ofGrid a)).inverse.outcome =
      (ofGrid a).inverse.outcome >>= fun x => .ok (.matrix x) := Calculation.outcome_bind _ _
  rw [Value.leftDivide, Calculation.outcome_bind, inverted, inverse_ofGrid]
  cases a.inverse.outcome with
  | error fault => rfl
  | ok inverse =>
    show ((ofGrid inverse).mul (ofGrid b) >>= fun c => Except.ok (Value.matrix c)) = _
    rw [mul_ofGrid]
    rfl

/-- Of a system that is reduced, the only solution is reported if the reduced grid has the full
rank and contradicts nothing. -/
theorem solveUniquely_of_classified {a b : Value ℚ} {s : LinearSystem ℚ}
    (formed : ofValues a b = .ok s) {m : Nat} {g : Grid ℚ m (s.unknowns + 1)}
    {found : Solution ℚ s.unknowns} (answered : s.solve.outcome = .ok found)
    (classified : Classified g found) :
    ((∃ x, (solveUniquely a b).outcome = .ok x) ↔
        rank g = s.unknowns ∧ contradiction g = none) ∧
      (contradiction g ≠ none → (solveUniquely a b).outcome = .error .incompatible) ∧
      (contradiction g = none → rank g ≠ s.unknowns → (solveUniquely a b).outcome =
        .error (.indeterminate ((parametrization g).map Line.text) (rank g)
          (s.unknowns - rank g))) := by
  rw [outcome_solveUniquely formed answered]
  cases classified with
  | incompatible i conflict => simp [conflict]
  | determined absent full x read => simp [absent, full]
  | indeterminate absent deficient =>
    simp [absent, deficient, Solution.dependent, Solution.independent]

/-- A square grid of full rank has no row left for a contradiction. -/
theorem contradiction_of_full {g : Grid ℚ n (n + 1)} (full : rank g = n) :
    contradiction g = none := by
  cases found : contradiction g with
  | none => rfl
  | some i =>
    have below := (contradiction_eq_some found).1
    have inside := i.isLt
    omega

/-- If the determinant does not count as zero, solving a square system and dividing its constants
by its coefficients from the left give the same column. Otherwise there is no quotient, and
solving gives a column exactly if the rank of the reduced system is full. If the rows below the
last pivot count as zero, that is if every unknown has a pivot. A column with all pivots is an
exact solution. -/
theorem solveUniquely_eq_leftDivide (positive : 0 < n) (a : Grid ℚ n n) (b : Grid ℚ n 1) :
    ∃ size, a.determinant.outcome = .ok size ∧
      (isZero size = false → ∃ x : Value ℚ,
        ((Value.matrix (ofGrid a)).leftDivide (.matrix (ofGrid b))).outcome = .ok x ∧
          (solveUniquely (.matrix (ofGrid a)) (.matrix (ofGrid b))).outcome = .ok x) ∧
      (isZero size = true →
        ((Value.matrix (ofGrid a)).leftDivide (.matrix (ofGrid b))).outcome = .error .singular ∧
          (∃ reduced, reduce ⟨n, n, a, b⟩ = .ok reduced ∧
            ((∃ x, (solveUniquely (.matrix (ofGrid a)) (.matrix (ofGrid b))).outcome = .ok x) ↔
              rank reduced.grid = n ∧ contradiction reduced.grid = none) ∧
            (contradiction reduced.grid ≠ none →
              (solveUniquely (.matrix (ofGrid a)) (.matrix (ofGrid b))).outcome =
                .error .incompatible) ∧
            (contradiction reduced.grid = none → rank reduced.grid ≠ n →
              (solveUniquely (.matrix (ofGrid a)) (.matrix (ofGrid b))).outcome =
                .error (.indeterminate ((parametrization reduced.grid).map Line.text)
                  (rank reduced.grid) (n - rank reduced.grid)))) ∧
          (VanishesFrom ⟨n, n, a, b⟩ (pivotCount ⟨n, n, a, b⟩) →
            ((∃ x, (solveUniquely (.matrix (ofGrid a)) (.matrix (ofGrid b))).outcome = .ok x) ↔
              pivotCount ⟨n, n, a, b⟩ = n)) ∧
          (pivotCount ⟨n, n, a, b⟩ = n → ∃ x : Grid ℚ n 1,
            (solveUniquely (.matrix (ofGrid a)) (.matrix (ofGrid b))).outcome =
              .ok (.matrix (ofGrid x)) ∧ a.mul x = b)) := by
  have formed := ofValues_ofGrid positive a b
  obtain ⟨size, computed, _⟩ := Grid.determinant_ok a
  refine ⟨size, computed, fun nonzero => ?_, fun zero => ⟨?_, ?_⟩⟩
  · obtain ⟨inverse, inverted, answered⟩ := solve_of_determinant computed nonzero b
    refine ⟨_, ?_, outcome_solveUniquely formed answered⟩
    rw [leftDivide_ofGrid, inverted]
    rfl
  · rw [leftDivide_ofGrid, Grid.inverse_singular computed zero]
    rfl
  have general := solvedByInverse_of_determinant computed b
  rw [zero] at general
  obtain ⟨reduced, found, reached, answered, classified⟩ := solve_of_not_solvedByInverse general
  have outcomes := solveUniquely_of_classified formed answered classified
  have pivots := pivotCount_of_reduce general reached
  refine ⟨⟨reduced, reached, outcomes⟩, fun vanishes => ?_, fun full => ?_⟩
  · obtain ⟨final, arrived, _, columns, echelon⟩ := reduce_ok ⟨n, n, a, b⟩
    cases Except.ok.inj (reached.symm.trans arrived)
    have low := placed_le_rank echelon
    have high := (rank_le_iff_vanishesFrom general reached _).mpr vanishes
    have same : rank reduced.grid = pivotCount ⟨n, n, a, b⟩ := by omega
    rw [outcomes.1, ← same]
    exact ⟨fun shown => shown.1, fun full => ⟨full, contradiction_of_full full⟩⟩
  · rw [pivots] at full
    obtain ⟨_, x, determined, solved⟩ := classified_of_placed rfl reached full classified
    obtain ⟨rank, outcome⟩ := found
    cases determined
    exact ⟨x, outcome_solveUniquely formed answered, solved⟩

/-- Two equations, each of which scales its own unknown by a small factor. -/
def faint : Grid ℚ 2 2 :=
  ⟨#v[1 / 2 ^ 20, 0, 0, 1 / 2 ^ 20]⟩

/-- Two equations with the same left-hand side up to a factor. -/
def doubled : Grid ℚ 2 2 :=
  ⟨#v[1, 1, 2, 2]⟩

theorem doubled_vanishes : VanishesFrom ⟨2, 2, doubled, column ![1, 2]⟩ 1 :=
  .inr ⟨⟨⟨#v[1, 1, 1, 0, 0, 0]⟩, 1⟩, by decide +kernel, by decide +kernel⟩

theorem staggered_and_faint_quotients :
    0 < 3 ∧ 0 < 2 ∧ isZero (-1 / 500 : ℚ) = false ∧ isZero (1 / 2 ^ 40 : ℚ) = true ∧
      (∃ x : Value ℚ,
        ((Value.matrix (ofGrid staggered)).leftDivide
          (.matrix (ofGrid (column ![1, 2, 3])))).outcome = .ok x ∧
        (solveUniquely (.matrix (ofGrid staggered))
          (.matrix (ofGrid (column ![1, 2, 3])))).outcome = .ok x) ∧
      ((Value.matrix (ofGrid faint)).leftDivide
        (.matrix (ofGrid (column ![1, 1])))).outcome = .error .singular ∧
      pivotCount ⟨2, 2, faint, column ![1, 1]⟩ = 2 ∧
      (∃ x, (solveUniquely (.matrix (ofGrid faint)) (.matrix (ofGrid (column ![1, 1])))).outcome =
        .ok (.matrix (ofGrid x)) ∧ faint.mul x = column ![1, 1]) ∧
      isZero (0 : ℚ) = true ∧ VanishesFrom ⟨2, 2, doubled, column ![1, 2]⟩ 1 ∧
      pivotCount ⟨2, 2, doubled, column ![1, 2]⟩ = 1 ∧
      ¬∃ x, (solveUniquely (.matrix (ofGrid doubled))
        (.matrix (ofGrid (column ![1, 2])))).outcome = .ok x := by
  have large : isZero (-1 / 500 : ℚ) = false := by decide +kernel
  have small : isZero (1 / 2 ^ 40 : ℚ) = true := by decide +kernel
  have pivots : pivotCount ⟨2, 2, faint, column ![1, 1]⟩ = 2 := by decide +kernel
  have one_pivot : pivotCount ⟨2, 2, doubled, column ![1, 2]⟩ = 1 := by decide +kernel
  have some_size : staggered.determinant.outcome = .ok (-1 / 500) := by decide +kernel
  have tiny_size : faint.determinant.outcome = .ok (1 / 2 ^ 40) := by decide +kernel
  have no_size : doubled.determinant.outcome = .ok 0 := by decide +kernel
  obtain ⟨_, first, agree, _⟩ :=
    solveUniquely_eq_leftDivide (n := 3) (by decide) staggered (column ![1, 2, 3])
  obtain ⟨_, second, _, differ⟩ :=
    solveUniquely_eq_leftDivide (n := 2) (by decide) faint (column ![1, 1])
  obtain ⟨_, third, _, singular⟩ :=
    solveUniquely_eq_leftDivide (n := 2) (by decide) doubled (column ![1, 2])
  cases Except.ok.inj (first.symm.trans some_size)
  cases Except.ok.inj (second.symm.trans tiny_size)
  cases Except.ok.inj (third.symm.trans no_size)
  obtain ⟨refused, _, _, solved⟩ := differ small
  obtain ⟨_, _, pivotwise, _⟩ := singular isZero_zero
  rw [one_pivot] at pivotwise
  refine ⟨by decide, by decide, large, small, agree large, refused, pivots, solved pivots,
    isZero_zero, doubled_vanishes, one_pivot, fun answered => ?_⟩
  exact absurd ((pivotwise doubled_vanishes).mp answered) (by decide)

/-- A system that is solved although its constants cannot be divided by its coefficients. -/
theorem faint_solved_not_divided :
    (solveUniquely (.matrix (ofGrid faint)) (.matrix (ofGrid (column ![1, 1])))).outcome =
        .ok (.matrix (ofGrid (column ![2 ^ 20, 2 ^ 20]))) ∧
      ((Value.matrix (ofGrid faint)).leftDivide
        (.matrix (ofGrid (column ![1, 1])))).outcome = .error .singular := by
  decide +kernel

end MatrixCalculator.LinearSystem
