import MatrixCalculator.LinearSystem.Solution
import MatrixCalculator.Proofs.Grid.Inverse
import MatrixCalculator.Proofs.LinearSystem.Reduction

/-! How a system is solved in exact arithmetic: by the inverse of its coefficients, which gives
its one solution, or by reduction, after which the grid is classified by its rank and constants.
Neither way can fail. -/
namespace MatrixCalculator.LinearSystem

section Definitions

variable {α : Type} [Scalar α]

def solvedByInverse : LinearSystem α → Bool
  | ⟨m, n, coefficients, _⟩ =>
    if same : m = n then
      match (coefficients.cast same rfl).determinant.outcome with
      | .ok size => !isZero size
      | .error _ => false
    else false

theorem solvedByInverse_eq (s : LinearSystem α) :
    s.solvedByInverse = if same : s.equations = s.unknowns then
      match (s.coefficients.cast same rfl).determinant.outcome with
      | .ok size => !isZero size
      | .error _ => false
    else false :=
  rfl

/-- How many pivots are found on the way to the solution: one for each unknown if the system is
solved by an inverse, and otherwise those that the reduction places. -/
def pivotCount (s : LinearSystem α) : Nat :=
  if s.solvedByInverse then s.unknowns
  else match s.reduce with
    | .ok reduced => reduced.placed
    | .error _ => 0

end Definitions

deriving instance DecidableEq for Reduction, Term, Line, Outcome, Solution

def Solves (s : LinearSystem ℚ) (x : Grid ℚ s.unknowns 1) : Prop :=
  s.coefficients.mul x = s.constants

variable {m n : Nat}

def column (x : Fin n → ℚ) : Grid ℚ n 1 :=
  Grid.ofFn fun j _ => x j

@[simp] theorem get_column (x : Fin n → ℚ) (j : Fin n) : (column x).get j 0 = x j :=
  Grid.get_ofFn _ j 0

theorem column_get (x : Grid ℚ n 1) : column (fun j => x.get j 0) = x := by
  apply Grid.ext
  intro i j
  rw [Subsingleton.elim j 0, get_column]

theorem residual_augmented (s : LinearSystem ℚ) (x : Fin s.unknowns → ℚ) (i : Fin s.equations) :
    s.augmented.residual x i = (s.coefficients.mul (column x)).get i 0 - s.constants.get i 0 := by
  rw [Grid.residual_eq, Grid.get_mul_eq_sum]
  simp [augmented]

theorem satisfies_augmented_iff (s : LinearSystem ℚ) (x : Fin s.unknowns → ℚ) :
    s.augmented.Satisfies x ↔ s.Solves (column x) := by
  simp only [Grid.Satisfies, residual_augmented, sub_eq_zero, Solves]
  constructor
  · intro same
    apply Grid.ext
    intro i j
    rw [Subsingleton.elim j 0]
    exact same i
  · intro same i
    rw [same]

theorem reduce_ok (s : LinearSystem ℚ) :
    ∃ reduced, s.reduce = .ok reduced ∧ Reduction.Reached s.augmented s.unknowns reduced :=
  Reduction.run_ok s.augmented

theorem lowest_eq_some {p : Fin m → Bool} {i : Fin m} (found : lowest p = some i) :
    p i = true ∧ ∀ j, i < j → p j = false := by
  obtain ⟨holds, before, after, split, fails⟩ := List.find?_eq_some_iff_append.mp found
  refine ⟨holds, fun j lower => ?_⟩
  have descending : (List.finRange m).reverse.Pairwise (· > ·) :=
    List.pairwise_reverse.mpr (List.pairwise_lt_finRange m)
  have member : j ∈ (List.finRange m).reverse := by simp
  rw [split] at member descending
  rcases List.mem_append.mp member with early | late
  · simpa using fails j early
  · rcases List.mem_cons.mp late with rfl | later
    · exact absurd lower (lt_irrefl j)
    · have := List.rel_of_pairwise_cons (List.pairwise_append.mp descending).2.1 later
      exact absurd lower (lt_asymm this)

theorem lowest_eq_none {p : Fin m → Bool} (absent : lowest p = none) (i : Fin m) :
    p i = false := by
  simpa using List.find?_eq_none.mp absent i (by simp)

theorem zeroRow_iff (g : Grid ℚ m (n + 1)) (i : Fin m) :
    zeroRow g i = true ↔ ∀ j : Fin n, isZero (g.get i j.castSucc) = true := by
  simp [zeroRow]

/-- The rank that a grid shows is the least number of rows below which all rows count as zero. -/
theorem rank_le_iff (g : Grid ℚ m (n + 1)) (k : Nat) :
    rank g ≤ k ↔ ∀ i : Fin m, k ≤ i.val → zeroRow g i = true := by
  unfold rank
  split
  · next i found =>
    obtain ⟨nonzero, below⟩ := lowest_eq_some found
    constructor
    · intro bound j after
      simpa using below j (Nat.lt_of_lt_of_le bound after)
    · intro zero
      by_contra high
      have := zero i (by omega)
      simp [this] at nonzero
  · next absent =>
    simp only [Nat.zero_le, true_iff]
    intro i _
    simpa using lowest_eq_none absent i

theorem contradiction_eq_some {g : Grid ℚ m (n + 1)} {i : Fin m}
    (found : contradiction g = some i) :
    rank g ≤ i.val ∧ isZero (g.get i (Fin.last n)) = false := by
  simpa using (lowest_eq_some found).1

theorem contradiction_eq_none {g : Grid ℚ m (n + 1)} (absent : contradiction g = none)
    {i : Fin m} (below : rank g ≤ i.val) : isZero (g.get i (Fin.last n)) = true := by
  simpa [below] using lowest_eq_none absent i

inductive Classified (g : Grid ℚ m (n + 1)) : Solution ℚ n → Prop
  | incompatible (i : Fin m) (found : contradiction g = some i) :
      Classified g ⟨rank g, .incompatible⟩
  | determined (absent : contradiction g = none) (full : rank g = n) (x : Grid ℚ n 1)
      (read : ∀ (j : Fin n) (i : Fin m), i.val = j.val → x.get j 0 = g.get i (Fin.last n)) :
      Classified g ⟨rank g, .determined x⟩
  | indeterminate (absent : contradiction g = none) (deficient : rank g ≠ n) :
      Classified g ⟨rank g, .indeterminate (parametrization g)⟩

theorem classify_ok (g : Grid ℚ m (n + 1)) :
    ∃ found, (classify g).outcome = .ok found ∧ Classified g found := by
  unfold classify
  split
  · next i found => exact ⟨_, rfl, .incompatible i found⟩
  · next absent =>
    split
    · next full =>
      refine ⟨_, rfl, .determined absent full _ fun j i same => ?_⟩
      rw [Grid.get_ofFn]
      congr 1
      exact Fin.ext same.symm
    · next deficient => exact ⟨_, rfl, .indeterminate absent deficient⟩

theorem solveByReduction_ok (s : LinearSystem ℚ) :
    ∃ reduced found, s.reduce = .ok reduced ∧ s.solveByReduction.outcome = .ok found ∧
      Classified reduced.grid found := by
  obtain ⟨reduced, reached, _⟩ := s.reduce_ok
  obtain ⟨found, answered, classified⟩ := classify_ok reduced.grid
  refine ⟨reduced, found, reached, ?_, classified⟩
  rw [solveByReduction, Calculation.outcome_bind, Calculation.outcome_ofExcept, reached]
  exact answered

theorem solve_of_not_solvedByInverse {s : LinearSystem ℚ} (general : s.solvedByInverse = false) :
    ∃ reduced found, s.reduce = .ok reduced ∧ s.solve.outcome = .ok found ∧
      Classified reduced.grid found := by
  obtain ⟨reduced, found, reached, general_path, classified⟩ := s.solveByReduction_ok
  refine ⟨reduced, found, reached, ?_, classified⟩
  unfold solve
  split
  · next same =>
    obtain ⟨size, computed, _⟩ := Grid.determinant_ok (s.coefficients.cast same rfl)
    have zero : isZero size = true := by
      simpa [solvedByInverse_eq, same, computed] using general
    rw [Calculation.outcome_bind, computed]
    show (if isZero size = true then s.solveByReduction else _).outcome = _
    rw [if_pos zero]
    exact general_path
  · exact general_path

/-- A system that is solved by an inverse is square, and its coefficients have that inverse. -/
theorem solve_of_solvedByInverse {s : LinearSystem ℚ} (direct : s.solvedByInverse = true) :
    ∃ (same : s.equations = s.unknowns) (inverse : Grid ℚ s.unknowns s.unknowns),
      inverse.mul (s.coefficients.cast same rfl) = Grid.identity s.unknowns ∧
      (s.coefficients.cast same rfl).mul inverse = Grid.identity s.unknowns ∧
      s.solve.outcome =
        .ok ⟨s.unknowns, .determined (inverse.mul (s.constants.cast same rfl))⟩ := by
  rw [solvedByInverse_eq] at direct
  split at direct
  · next same =>
    obtain ⟨size, computed, _⟩ := Grid.determinant_ok (s.coefficients.cast same rfl)
    have nonzero : isZero size = false := by simpa [computed] using direct
    obtain ⟨inverse, found, left, right⟩ := Grid.inverse_ok computed nonzero
    refine ⟨same, inverse, left, right, ?_⟩
    unfold solve
    rw [dif_pos same, Calculation.outcome_bind, computed]
    show (if isZero size = true then s.solveByReduction else _).outcome = _
    rw [if_neg (by simp [nonzero])]
    simp only [Calculation.outcome_bind, found]
    rfl
  · contradiction

end MatrixCalculator.LinearSystem
