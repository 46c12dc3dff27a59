import MatrixCalculator.Proofs.LinearSystem.Classification
import MatrixCalculator.Proofs.LinearSystem.Scanning

/-! The lines that describe an indeterminate system, in exact arithmetic. A line reads its row as an
equation for the first unknown that does not count as zero there. This is the unknown of the pivot,
whose coefficient is one in this row and zero in all others. -/
namespace MatrixCalculator.LinearSystem

variable {m n : Nat}

section Tests

variable {α : Type} [Scalar α]

/-- The coefficients that are tested to write a row as a line: those up to the leading one, and
then each one behind it. -/
def lineTests (g : Grid α m (n + 1)) (i : Fin m) : List α :=
  zeroRowTests g i ++
    ((List.finRange n).filter fun j => decide (leading g i < j.val)).map fun j => g.get i j.castSucc

def parametrizationTests (s : LinearSystem α) : List α :=
  if s.solvedByInverse then []
  else match s.reduce with
    | .ok reduced =>
      ((List.finRange s.equations).take (rank reduced.grid)).flatMap (lineTests reduced.grid)
    | .error _ => []

end Tests

section Meaning

def component (x : Fin n → ℚ) (j : Nat) : ℚ :=
  if inside : j < n then x ⟨j, inside⟩ else 0

def Term.value (t : Term ℚ) (x : Fin n → ℚ) : ℚ :=
  (if t.subtracted then -t.factor else t.factor) * component x t.unknown

def Line.Holds (l : Line ℚ) (x : Fin n → ℚ) : Prop :=
  component x l.unknown = l.constant + (l.terms.map (·.value x)).sum

theorem component_val (x : Fin n → ℚ) (j : Fin n) : component x j = x j :=
  dif_pos j.isLt

/-- A coefficient that changes sides takes the other sign. -/
theorem value_of_coefficient (a : ℚ) (x : Fin n → ℚ) (j : Fin n) :
    (⟨decide (0 < a), Scalar.magnitude a, j⟩ : Term ℚ).value x = -(a * x j) := by
  rw [Term.value, component_val, magnitude_rat]
  by_cases positive : 0 < a
  · simp [positive, abs_of_pos positive]
  · simp [positive, abs_of_nonpos (not_lt.mp positive)]

end Meaning

section Rows

variable {initial : Grid ℚ m (n + 1)} {k q : Nat} {s : Reduction ℚ m n} {pivots : List (Fin n)}
  {c : Fin n} {g : Grid ℚ m (n + 1)} {i : Fin m}

theorem leading_eq (staircase : Reduction.Staircase initial k s pivots)
    (placed : pivots[q]? = some c) (row : i.val = q) : leading s.grid i = c := by
  have pivot : s.grid.get i c.castSucc = 1 := by
    rw [staircase.echelon.unit q c placed, if_pos row]
  refine (List.findIdx_eq (by simp)).mpr ⟨by simp [pivot, isZero_one], fun j before => ?_⟩
  have zero : isZero (s.grid.get i (Fin.castSucc ⟨j, before.trans c.isLt⟩)) = true := by
    rw [staircase.leading q c placed i row _ before, isZero_zero]
  simpa using zero

theorem unknowns_parametrization (staircase : Reduction.Staircase initial k s pivots)
    (rank_eq : rank s.grid = s.placed) :
    (parametrization s.grid).map (·.unknown) = pivots.map Fin.val := by
  have count := staircase.echelon.count
  have fits := staircase.echelon.fits
  apply List.ext_getElem
  · simp [parametrization, rank_eq, count, fits]
  · intro q left right
    have inside : q < pivots.length := by simpa using right
    simp only [parametrization, List.map_map, List.getElem_map, List.getElem_take,
      List.getElem_finRange]
    exact leading_eq staircase (List.getElem?_eq_getElem inside) rfl

theorem mem_parametrization {l : Line ℚ} :
    l ∈ parametrization g ↔ ∃ i : Fin m, i.val < rank g ∧ lineOf g i = l := by
  simp only [parametrization, List.mem_map, Grid.mem_take_finRange]

theorem exists_of_mem_terms {t : Term ℚ} (member : t ∈ (lineOf g i).terms) :
    ∃ j : Fin n, t.unknown = j ∧ leading g i < j ∧ g.get i j.castSucc ≠ 0 := by
  obtain ⟨j, _, made⟩ := List.mem_filterMap.mp member
  dsimp only at made
  split at made
  · next behind =>
    cases made
    exact ⟨j, rfl, behind.1, ne_zero_of_isZero_false behind.2⟩
  · contradiction

/-- The terms of a line add up to its later coefficients on the other side. -/
theorem sum_terms (decisive : ∀ a ∈ lineTests g i, Decisive a) (x : Fin n → ℚ) :
    ((lineOf g i).terms.map (·.value x)).sum =
      -∑ j : Fin n, if leading g i < j then g.get i j.castSucc * x j else 0 := by
  have vanishes (j : Fin n) (behind : leading g i < j)
      (zero : isZero (g.get i j.castSucc) = true) : g.get i j.castSucc = 0 := by
    refine (decisive _ (List.mem_append_right _ (List.mem_map_of_mem ?_))).eq_zero zero
    simp [behind]
  rw [Fin.sum_univ_def, lineOf]
  dsimp only
  induction List.finRange n with
  | nil => simp
  | cons j rest ih =>
    rw [List.filterMap_cons, List.map_cons, List.sum_cons, neg_add, ← ih]
    by_cases behind : leading g i < j
    · cases tested : isZero (g.get i j.castSucc) with
      | false => simp [behind, value_of_coefficient]
      | true => simp [vanishes j behind tested]
    · simp [behind]

theorem residual_pivotRow (staircase : Reduction.Staircase initial k s pivots)
    (placed : pivots[q]? = some c) (row : i.val = q) (x : Fin n → ℚ) :
    s.grid.residual x i =
      x c + (∑ j : Fin n, if leading s.grid i < j then s.grid.get i j.castSucc * x j else 0) -
        s.grid.get i (Fin.last n) := by
  have parts (j : Fin n) : s.grid.get i j.castSucc * x j =
      (if j = c then x j else 0) +
        if leading s.grid i < j then s.grid.get i j.castSucc * x j else 0 := by
    rw [leading_eq staircase placed row]
    rcases lt_trichotomy j c with before | same | behind
    · rw [staircase.leading q c placed i row j before]
      simp [before.ne]
    · rw [same, staircase.echelon.unit q c placed, if_pos row]
      simp
    · simp [behind, behind.ne']
  rw [Grid.residual_eq, Finset.sum_congr rfl fun j _ => parts j, Finset.sum_add_distrib,
    Finset.sum_ite_eq', if_pos (Finset.mem_univ c)]

theorem lineOf_holds_iff (staircase : Reduction.Staircase initial k s pivots)
    (placed : pivots[q]? = some c) (row : i.val = q)
    (decisive : ∀ a ∈ lineTests s.grid i, Decisive a) (x : Fin n → ℚ) :
    (lineOf s.grid i).Holds x ↔ s.grid.residual x i = 0 := by
  have left : component x (lineOf s.grid i).unknown = x c := by
    rw [← component_val x c, ← leading_eq staircase placed row]
    rfl
  rw [Line.Holds, left, sum_terms decisive, residual_pivotRow staircase placed row,
    sub_eq_zero, ← sub_eq_add_neg, eq_sub_iff_add_eq]
  rfl

/-- No line has the unknown of a line on its right-hand side. -/
theorem unknown_not_mem (staircase : Reduction.Staircase initial k s pivots) {t : Term ℚ}
    (member : t ∈ (lineOf s.grid i).terms) :
    t.unknown < n ∧ t.unknown ∉ pivots.map Fin.val := by
  obtain ⟨j, same, behind, nonzero⟩ := exists_of_mem_terms member
  refine ⟨same ▸ j.isLt, fun pivot => nonzero ?_⟩
  obtain ⟨d, inside, equal⟩ := List.mem_map.mp pivot
  obtain rfl : d = j := Fin.ext (equal.trans same)
  obtain ⟨q, found⟩ := List.mem_iff_getElem?.mp inside
  -- Outside its own row a pivot column is zero, and in that row it does not come behind itself.
  rw [staircase.echelon.unit q d found, if_neg]
  intro row
  rw [leading_eq staircase found row] at behind
  exact absurd behind (Nat.lt_irrefl _)

end Rows

variable {s : LinearSystem ℚ} {reduced : Reduction ℚ s.equations s.unknowns}
  {pivots : List (Fin s.unknowns)}

theorem solvedByInverse_of_indeterminate {found : Solution ℚ s.unknowns} {lines : List (Line ℚ)}
    (answered : s.solve.outcome = .ok found) (many : found.outcome = .indeterminate lines) :
    s.solvedByInverse = false := by
  by_contra direct
  obtain ⟨_, _, _, _, unique⟩ := solve_of_solvedByInverse (Bool.eq_true_of_not_eq_false direct)
  cases Except.ok.inj (answered.symm.trans unique)
  contradiction

theorem decisive_lineTests (general : s.solvedByInverse = false) (reached : s.reduce = .ok reduced)
    (decisive : ∀ a ∈ s.parametrizationTests, Decisive a) {i : Fin s.equations}
    (above : i.val < rank reduced.grid) : ∀ a ∈ lineTests reduced.grid i, Decisive a := by
  intro a member
  apply decisive
  simp only [parametrizationTests, general, reached, Bool.false_eq_true, if_false]
  exact List.mem_flatMap.mpr ⟨i, Grid.mem_take_finRange.mpr above, member⟩

theorem Analysed.lines_hold_iff (analysed : Analysed s reduced pivots)
    (absent : contradiction reduced.grid = none)
    (decisive : ∀ i : Fin s.equations, i.val < rank reduced.grid →
      ∀ a ∈ lineTests reduced.grid i, Decisive a) (x : Fin s.unknowns → ℚ) :
    (∀ l ∈ parametrization reduced.grid, l.Holds x) ↔ s.Solves (column x) := by
  have echelon := analysed.staircase.echelon
  have line (i : Fin s.equations) (above : i.val < rank reduced.grid) :
      (lineOf reduced.grid i).Holds x ↔ reduced.grid.residual x i = 0 := by
    have inside : i.val < pivots.length := by rwa [echelon.count, ← analysed.rank_eq]
    exact lineOf_holds_iff analysed.staircase (List.getElem?_eq_getElem inside) rfl
      (decisive i above) x
  rw [← satisfies_augmented_iff, ← echelon.equivalent.satisfies_iff]
  constructor
  · intro holds i
    by_cases above : i.val < rank reduced.grid
    · exact (line i above).mp (holds _ (mem_parametrization.mpr ⟨i, above, rfl⟩))
    · -- A row without a pivot has neither coefficients nor a constant left.
      have below : reduced.placed ≤ i.val := analysed.rank_eq ▸ Nat.le_of_not_lt above
      rw [Grid.residual_eq, analysed.settled absent i below, sub_zero]
      refine Finset.sum_eq_zero fun j _ => ?_
      rw [analysed.staircase.cleared i below j j.isLt, zero_mul]
  · intro solved l member
    obtain ⟨i, above, rfl⟩ := mem_parametrization.mp member
    exact (line i above).mpr (solved i)

/-- The lines of an indeterminate system give as many unknowns as the rank says, in ascending
order, in terms of the other ones, and hold for the solutions of the system and for no other
vector, provided that no tested number is close to zero without being zero. Their texts are what
the scan of the reduced matrix prints, row by row. -/
theorem parametrization_solves {found : Solution ℚ s.unknowns} {lines : List (Line ℚ)}
    (answered : s.solve.outcome = .ok found) (many : found.outcome = .indeterminate lines)
    (decisive : ∀ a ∈ s.tests ++ s.parametrizationTests, Decisive a) :
    lines.length = found.rank ∧ (lines.map (·.unknown)).Pairwise (· < ·) ∧
      (∀ l ∈ lines, l.unknown < s.unknowns ∧ ∀ t ∈ l.terms,
        t.unknown < s.unknowns ∧ t.unknown ∉ lines.map (·.unknown)) ∧
      (∀ x : Fin s.unknowns → ℚ, (∀ l ∈ lines, l.Holds x) ↔ s.Solves (column x)) ∧
      ∃ reduced, s.reduce = .ok reduced ∧
        (List.range found.rank).mapM (Scan.line (DenseMatrix.ofGrid reduced.grid) s.unknowns) =
          .ok (lines.map Line.text) := by
  have general := solvedByInverse_of_indeterminate answered many
  obtain ⟨reduced, pivots, analysed⟩ :=
    exists_analysed general fun a member => decisive a (List.mem_append_left _ member)
  obtain ⟨final, same, reached, report, classified⟩ := solve_of_not_solvedByInverse general
  cases Except.ok.inj (analysed.reached.symm.trans reached)
  cases Except.ok.inj (answered.symm.trans report)
  have tested (i : Fin s.equations) (above : i.val < rank reduced.grid) :=
    decisive_lineTests general reached (fun a member => decisive a (List.mem_append_right _ member))
      above
  cases classified with
  | incompatible i conflict => contradiction
  | determined absent full x read => contradiction
  | indeterminate absent deficient =>
    cases many
    have unknowns := unknowns_parametrization analysed.staircase analysed.rank_eq
    refine ⟨by simp [parametrization, rank_le], ?_, ?_, analysed.lines_hold_iff absent tested,
      reduced, reached, Scan.lines_ofGrid reduced.grid⟩
    · rw [unknowns]
      exact List.pairwise_map.mpr analysed.staircase.echelon.ascending
    · intro l member
      obtain ⟨i, above, rfl⟩ := mem_parametrization.mp member
      have listed := List.mem_map_of_mem (f := (·.unknown)) member
      rw [unknowns] at listed ⊢
      obtain ⟨c, _, same⟩ := List.mem_map.mp listed
      exact ⟨same ▸ c.isLt, fun t term => unknown_not_mem analysed.staircase term⟩

theorem redundant_parametrization :
    redundant.solve.outcome = .ok ⟨2, .indeterminate [⟨1, 1, [⟨true, 2, 2⟩]⟩, ⟨3, 1, []⟩]⟩ ∧
      (∀ x : Fin 4 → ℚ, redundant.Solves (column x) ↔ x 1 = 1 - 2 * x 2 ∧ x 3 = 1) ∧
      ∃ reduced, redundant.reduce = .ok reduced ∧
        (List.range 2).mapM (Scan.line (DenseMatrix.ofGrid reduced.grid) 4) =
          .ok [(⟨1, 1, [⟨true, 2, 2⟩]⟩ : Line ℚ).text, (⟨3, 1, []⟩ : Line ℚ).text] := by
  have answered : redundant.solve.outcome =
      .ok ⟨2, .indeterminate [⟨1, 1, [⟨true, 2, 2⟩]⟩, ⟨3, 1, []⟩]⟩ := by decide +kernel
  have decisive : ∀ a ∈ redundant.tests ++ redundant.parametrizationTests, Decisive a := by
    decide +kernel
  refine ⟨answered, fun x => ?_, (parametrization_solves answered rfl decisive).2.2.2.2⟩
  have same : (∀ l ∈ ([⟨1, 1, [⟨true, 2, 2⟩]⟩, ⟨3, 1, []⟩] : List (Line ℚ)), l.Holds x) ↔
      redundant.Solves (column x) := (parametrization_solves answered rfl decisive).2.2.2.1 x
  have second : component x 1 = x 1 := component_val x 1
  have third : component x 2 = x 2 := component_val x 2
  have fourth : component x 3 = x 3 := component_val x 3
  rw [← same]
  simp [Line.Holds, Term.value, second, third, fourth, sub_eq_add_neg]

end MatrixCalculator.LinearSystem
