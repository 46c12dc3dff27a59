import MatrixCalculator.Proofs.LinearSystem.Residual

/-! Classification of systems in exact arithmetic. If no number that a run tests is close to zero
without being zero, the run finds the rank of the coefficients and tells systems without
solution, with one and with many apart. -/
namespace MatrixCalculator.LinearSystem

variable {m n : Nat}

section Tests

variable {α : Type} [Scalar α]

/-- The number that the treatment of a column tests for zero, if it tests any. -/
def Reduction.test (s : Reduction α m n) (c : Fin n) : List α :=
  if left : s.placed < m then [s.grid.get (s.candidate c left) c.castSucc] else []

def Reduction.tests : List (Fin n) → Reduction α m n → List α
  | [], _ => []
  | c :: rest, s => s.test c ++ match s.step c with
    | .ok next => tests rest next
    | .error _ => []

/-- The items that a search looks at: all up to the first one that it finds. -/
def searched {β : Type} (found : β → Bool) : List β → List β
  | [] => []
  | item :: rest => if found item then [item] else item :: searched found rest

def zeroRowTests (g : Grid α m (n + 1)) (i : Fin m) : List α :=
  (searched (fun j => !isZero (g.get i j.castSucc)) (List.finRange n)).map
    fun j => g.get i j.castSucc

/-- The numbers that are tested to find the rank, from the lowest row upwards. -/
def rankTests (g : Grid α m (n + 1)) : List α :=
  (searched (fun i => !zeroRow g i) (List.finRange m).reverse).flatMap (zeroRowTests g)

def contradictionTests (g : Grid α m (n + 1)) : List α :=
  (searched (fun i => !isZero (g.get i (Fin.last n)))
    ((List.finRange m).reverse.filter fun i => decide (rank g ≤ i))).map
      fun i => g.get i (Fin.last n)

def tests (s : LinearSystem α) : List α :=
  if s.solvedByInverse then []
  else match s.reduce with
    | .ok reduced => Reduction.tests (List.finRange s.unknowns) ⟨s.augmented, 0⟩ ++
        rankTests reduced.grid ++ contradictionTests reduced.grid
    | .error _ => Reduction.tests (List.finRange s.unknowns) ⟨s.augmented, 0⟩

end Tests

/-- Whether a number is zero or does not count as zero. -/
def Decisive (x : ℚ) : Prop :=
  x = 0 ∨ isZero x = false

instance : DecidablePred Decisive := fun x =>
  inferInstanceAs (Decidable (x = 0 ∨ isZero x = false))

theorem Decisive.eq_zero {x : ℚ} (decisive : Decisive x) (zero : isZero x = true) : x = 0 := by
  rcases decisive with exact | nonzero
  · exact exact
  · rw [zero] at nonzero
    contradiction

theorem searched_of_none {β : Type} {found : β → Bool} {items : List β}
    (absent : ∀ item ∈ items, found item = false) : searched found items = items := by
  induction items with
  | nil => rfl
  | cons item rest ih =>
    rw [searched, if_neg (by simp [absent item]), ih]
    exact fun other member => absent other (List.mem_cons_of_mem _ member)

namespace Reduction

/-- Whether the rows without a pivot are zero in the columns before `k`. -/
def Cleared (k : Nat) (s : Reduction ℚ m n) : Prop :=
  ∀ i : Fin m, s.placed ≤ i.val → ∀ c : Fin n, c.val < k → s.grid.get i c.castSucc = 0

theorem Cleared.step {s next : Reduction ℚ m n} {c : Fin n} (cleared : Cleared c s)
    (decisive : ∀ x ∈ s.test c, Decisive x) (moved : Step s c next) : Cleared (c + 1) next := by
  intro i below d before
  cases moved with
  | exhausted full => exact absurd i.isLt (by omega)
  | skipped left zero =>
    rcases Nat.lt_succ_iff_lt_or_eq.mp before with earlier | same
    · exact cleared i below d earlier
    · have same : d = c := Fin.ext same
      subst same
      have tested : s.grid.get (s.candidate d left) d.castSucc ∈ s.test d := by
        simp [test, left]
      exact Grid.eq_zero_of_pivotRow ((decisive _ tested).eq_zero zero) below
  | advanced left nonzero =>
    have pivot := ne_zero_of_isZero_false nonzero
    have low : s.placed ≤ (s.candidate c left).val :=
      Grid.start_le_pivotRow s.grid c.castSucc ⟨s.placed, left⟩
    have lower : s.placed ≤ i.val := Nat.le_of_succ_le below
    rcases Nat.lt_succ_iff_lt_or_eq.mp before with earlier | same
    · rw [get_pivoted_of_zero (cleared _ (Nat.le_refl _) d earlier) (cleared _ low d earlier)]
      exact cleared i lower d earlier
    · rw [Fin.ext same, get_pivoted_column pivot, if_neg]
      intro top
      rw [top] at below
      exact absurd below (Nat.not_succ_le_self _)

/-- What a reduction with decisive tests has established when it comes to column `k`: besides the
echelon form, the columns in front of each pivot are zero in its row, and those before `k` in the
rows without a pivot. -/
structure Staircase (initial : Grid ℚ m (n + 1)) (k : Nat) (s : Reduction ℚ m n)
    (pivots : List (Fin n)) : Prop where
  echelon : Echelon initial k s pivots
  cleared : Cleared k s
  leading : ∀ q c, pivots[q]? = some c →
    ∀ i : Fin m, i.val = q → ∀ d : Fin n, d < c → s.grid.get i d.castSucc = 0

namespace Staircase

variable {initial : Grid ℚ m (n + 1)} {s next : Reduction ℚ m n} {pivots : List (Fin n)}

theorem start (initial : Grid ℚ m (n + 1)) : Staircase initial 0 ⟨initial, 0⟩ [] where
  echelon := .start initial
  cleared _ _ _ before := absurd before (Nat.not_lt_zero _)
  leading := by simp

theorem step {c : Fin n} (inv : Staircase initial c s pivots)
    (decisive : ∀ x ∈ s.test c, Decisive x) (moved : Step s c next) :
    ∃ later, Staircase initial (c + 1) next later := by
  have cleared := inv.cleared.step decisive moved
  cases moved with
  | exhausted full => exact ⟨pivots, inv.echelon.mono, cleared, inv.leading⟩
  | skipped left zero => exact ⟨pivots, inv.echelon.mono, cleared, inv.leading⟩
  | advanced left nonzero =>
    refine ⟨pivots ++ [c], inv.echelon.advance left nonzero, cleared, ?_⟩
    intro q d found i row e before
    have low : s.placed ≤ (candidate s c left).val :=
      Grid.start_le_pivotRow s.grid c.castSucc ⟨s.placed, left⟩
    -- In the columns before `c` both rows of the exchange are zero, so nothing changes there.
    have kept (e : Fin n) (before : e < c) :
        (pivoted ⟨s.placed, left⟩ (candidate s c left) c s.grid).get i e.castSucc =
          s.grid.get i e.castSucc :=
      get_pivoted_of_zero (inv.cleared _ (Nat.le_refl _) e before)
        (inv.cleared _ low e before) c i
    rcases Nat.lt_or_ge q pivots.length with old | new
    · rw [List.getElem?_append_left old] at found
      rw [kept e (before.trans (inv.echelon.visited d (List.mem_of_getElem? found)))]
      exact inv.leading q d found i row e before
    · rw [List.getElem?_append_right new, List.getElem?_singleton] at found
      split at found
      · cases Option.some.inj found
        rw [kept e before]
        exact inv.cleared i (by rw [row, ← inv.echelon.count]; exact new) e before
      · contradiction

end Staircase

theorem run_staircase {initial : Grid ℚ m (n + 1)}
    (decisive : ∀ x ∈ tests (List.finRange n) ⟨initial, 0⟩, Decisive x) :
    ∃ final, run (List.finRange n) ⟨initial, 0⟩ = .ok final ∧
      ∃ pivots, Staircase initial n final pivots := by
  let Inv (k : Nat) (s : Reduction ℚ m n) : Prop :=
    (∃ pivots, Staircase initial k s pivots) ∧
      ∀ x ∈ tests ((List.finRange n).drop k) s, Decisive x
  have kept : ∀ (c : Fin n) (s : Reduction ℚ m n), Inv c s →
      ∃ next, step s c = .ok next ∧ Inv (c + 1) next := by
    rintro c s ⟨⟨pivots, inv⟩, ahead⟩
    obtain ⟨next, moved, kind⟩ := step_ok s c
    rw [List.drop_eq_getElem_cons (by simp), List.getElem_finRange] at ahead
    simp only [Fin.cast_mk, Fin.eta, tests, moved, List.mem_append] at ahead
    exact ⟨next, moved, inv.step (fun x member => ahead x (.inl member)) kind,
      fun x member => ahead x (.inr member)⟩
  obtain ⟨final, arrived, staircase, _⟩ :=
    Grid.foldlM_finRange Reduction.step Inv kept ⟨⟨[], .start initial⟩, decisive⟩
  exact ⟨final, arrived, staircase⟩

end Reduction

/-- The rank of the coefficients of a grid in which the rows without a pivot are zero. -/
theorem rank_toMatrix_of_cleared {initial : Grid ℚ m (n + 1)} {k : Nat}
    {reduced : Reduction ℚ m n} {pivots : List (Fin n)}
    (echelon : Reduction.Echelon initial k reduced pivots) (cleared : reduced.Cleared n) :
    (reduced.grid.toMatrix.submatrix id Fin.castSucc).rank = reduced.placed := by
  apply le_antisymm
  · let top : Finset (Fin m) := Finset.univ.image (Fin.castLE echelon.fits)
    have support : Function.support
        (reduced.grid.toMatrix.submatrix id Fin.castSucc).row ⊆ top := by
      intro i nonzero
      by_contra outside
      apply nonzero
      have below : reduced.placed ≤ i.val := by
        by_contra above
        exact outside (Finset.mem_coe.mpr (Finset.mem_image.mpr
          ⟨⟨i, Nat.lt_of_not_le above⟩, Finset.mem_univ _, rfl⟩))
      funext j
      exact cleared i below j j.isLt
    have bound := Matrix.rank_le_card_of_support_subset _ top support
    exact bound.trans (Finset.card_image_le.trans (by simp))
  · let chosen (q : Fin reduced.placed) : Fin n := pivots.get ⟨q, q.isLt.trans_eq echelon.count.symm⟩
    have identity : (reduced.grid.toMatrix.submatrix id Fin.castSucc).submatrix
        (Fin.castLE echelon.fits) chosen = 1 := by
      ext p q
      have unit := echelon.unit q.val (chosen q) (List.getElem?_eq_getElem _)
        (Fin.castLE echelon.fits p)
      simpa [Matrix.one_apply, Fin.ext_iff] using unit
    have bound := Matrix.rank_submatrix_le (reduced.grid.toMatrix.submatrix id Fin.castSucc)
      (Fin.castLE echelon.fits) chosen
    rw [identity, Matrix.rank_one, Fintype.card_fin] at bound
    exact bound

theorem rank_coefficients {s : LinearSystem ℚ} {reduced : Reduction ℚ s.equations s.unknowns}
    {pivots : List (Fin s.unknowns)}
    (echelon : Reduction.Echelon s.augmented s.unknowns reduced pivots)
    (cleared : reduced.Cleared s.unknowns) :
    s.coefficients.toMatrix.rank = reduced.placed := by
  have columns : s.augmented.toMatrix.submatrix id Fin.castSucc = s.coefficients.toMatrix := by
    ext i j
    simp [augmented]
  rw [← rank_toMatrix_of_cleared echelon cleared,
    echelon.equivalent.rank_submatrix Fin.castSucc, columns]

theorem mulVec_injective_of_rank {A : Matrix (Fin m) (Fin n) ℚ} (full : A.rank = n) :
    Function.Injective A.mulVec := by
  have sum := A.mulVecLin.finrank_range_add_finrank_ker
  have range : Module.finrank ℚ (LinearMap.range A.mulVecLin) = n := full
  rw [range, Module.finrank_fin_fun, Nat.add_eq_left, Submodule.finrank_eq_zero] at sum
  exact LinearMap.ker_eq_bot.mp sum

theorem exists_mulVec_eq_zero {A : Matrix (Fin m) (Fin n) ℚ} (deficient : A.rank < n) :
    ∃ v ≠ 0, A.mulVec v = 0 := by
  have sum := A.mulVecLin.finrank_range_add_finrank_ker
  have range : Module.finrank ℚ (LinearMap.range A.mulVecLin) < n := deficient
  rw [Module.finrank_fin_fun] at sum
  have nontrivial : LinearMap.ker A.mulVecLin ≠ ⊥ := by
    intro trivial
    rw [trivial, finrank_bot] at sum
    omega
  obtain ⟨v, kernel, nonzero⟩ := Submodule.exists_mem_ne_zero_of_ne_bot nontrivial
  exact ⟨v, nonzero, kernel⟩

theorem solves_column_iff (s : LinearSystem ℚ) (x : Fin s.unknowns → ℚ) :
    s.Solves (column x) ↔ s.coefficients.toMatrix.mulVec x = fun i => s.constants.get i 0 := by
  have side (i : Fin s.equations) :
      (s.coefficients.mul (column x)).get i 0 = s.coefficients.toMatrix.mulVec x i := by
    rw [Grid.get_mul_eq_sum]
    simp [Matrix.mulVec, dotProduct]
  constructor
  · intro solved
    funext i
    rw [← side, solved]
  · intro same
    apply Grid.ext
    intro i j
    rw [Subsingleton.elim j 0, side, same]

def Describes (s : LinearSystem ℚ) : Outcome ℚ s.unknowns → Prop
  | .incompatible => ¬∃ x, s.Solves x
  | .determined x => s.Solves x ∧ ∀ y, s.Solves y → y = x
  | .indeterminate _ => ∃ x y, x ≠ y ∧ s.Solves x ∧ s.Solves y

theorem solves_unique {s : LinearSystem ℚ} (full : s.coefficients.toMatrix.rank = s.unknowns)
    {x y : Grid ℚ s.unknowns 1} (first : s.Solves x) (second : s.Solves y) : y = x := by
  rw [← column_get x, solves_column_iff] at first
  rw [← column_get y, solves_column_iff] at second
  have same := mulVec_injective_of_rank full (second.trans first.symm)
  rw [← column_get x, ← column_get y, same]

theorem solves_another {s : LinearSystem ℚ} (deficient : s.coefficients.toMatrix.rank < s.unknowns)
    {x : Fin s.unknowns → ℚ} (solved : s.Solves (column x)) :
    ∃ y, column x ≠ y ∧ s.Solves (column x) ∧ s.Solves y := by
  obtain ⟨v, nonzero, kernel⟩ := exists_mulVec_eq_zero deficient
  refine ⟨column (x + v), ?_, solved, ?_⟩
  · intro same
    apply nonzero
    funext j
    have entry := congrArg (fun g : Grid ℚ s.unknowns 1 => g.get j 0) same
    simpa using entry
  · rw [solves_column_iff] at solved ⊢
    rw [Matrix.mulVec_add, kernel, add_zero, solved]

/-- The pivot columns alone solve a system whose lower rows have no constants left. -/
theorem solves_particular {s : LinearSystem ℚ} {reduced : Reduction ℚ s.equations s.unknowns}
    {pivots : List (Fin s.unknowns)}
    (echelon : Reduction.Echelon s.augmented s.unknowns reduced pivots)
    (rows : pivots.length ≤ s.equations)
    (settled : ∀ i : Fin s.equations, reduced.placed ≤ i.val →
      reduced.grid.get i (Fin.last s.unknowns) = 0) :
    s.Solves (column (particular reduced pivots rows)) := by
  rw [← satisfies_augmented_iff, ← echelon.equivalent.satisfies_iff]
  intro i
  rw [residual_particular echelon rows]
  split_ifs with above
  · rfl
  · rw [settled i (Nat.le_of_not_lt above), neg_zero]

structure Analysed (s : LinearSystem ℚ) (reduced : Reduction ℚ s.equations s.unknowns)
    (pivots : List (Fin s.unknowns)) : Prop where
  reached : s.reduce = .ok reduced
  staircase : Reduction.Staircase s.augmented s.unknowns reduced pivots
  rank_eq : rank reduced.grid = reduced.placed
  settled : contradiction reduced.grid = none → ∀ i : Fin s.equations, reduced.placed ≤ i.val →
    reduced.grid.get i (Fin.last s.unknowns) = 0

theorem exists_analysed {s : LinearSystem ℚ} (general : s.solvedByInverse = false)
    (decisive : ∀ x ∈ s.tests, Decisive x) : ∃ reduced pivots, Analysed s reduced pivots := by
  obtain ⟨reduced, reached, _⟩ := s.reduce_ok
  have listed : s.tests = Reduction.tests (List.finRange s.unknowns) ⟨s.augmented, 0⟩ ++
      rankTests reduced.grid ++ contradictionTests reduced.grid := by
    simp [tests, general, reached]
  simp only [listed, List.mem_append] at decisive
  obtain ⟨final, arrived, pivots, staircase⟩ :=
    Reduction.run_staircase fun x member => decisive x (.inl (.inl member))
  cases Except.ok.inj (reached.symm.trans arrived)
  have rank_eq : rank reduced.grid = reduced.placed := by
    refine le_antisymm ((rank_le_iff _ _).mpr fun i below => ?_) (placed_le_rank staircase.echelon)
    refine (zeroRow_iff _ _).mpr fun j => ?_
    rw [staircase.cleared i below j j.isLt, isZero_zero]
  refine ⟨reduced, pivots, reached, staircase, rank_eq, fun absent i below => ?_⟩
  have zero (i : Fin s.equations) (below : rank reduced.grid ≤ i.val) :=
    contradiction_eq_none absent below
  refine (decisive _ (.inr ?_)).eq_zero (zero i (rank_eq ▸ below))
  rw [contradictionTests, searched_of_none]
  · exact List.mem_map_of_mem (by simp [rank_eq, below])
  · intro r member
    simp [zero r (by simpa using member)]

theorem describes_of_reduction {s : LinearSystem ℚ} (general : s.solvedByInverse = false)
    (decisive : ∀ x ∈ s.tests, Decisive x) :
    ∃ found, s.solve.outcome = .ok found ∧ found.rank = s.coefficients.toMatrix.rank ∧
      s.Describes found.outcome := by
  obtain ⟨final, pivots, reached, ⟨echelon, cleared, _⟩, rank_eq, settled⟩ :=
    exists_analysed general decisive
  obtain ⟨reduced, found, same, answered, classified⟩ := solve_of_not_solvedByInverse general
  cases Except.ok.inj (reached.symm.trans same)
  have dimension := rank_coefficients echelon cleared
  have rows : pivots.length ≤ s.equations := echelon.count.trans_le echelon.fits
  refine ⟨found, answered, by rw [classified.rank_eq, rank_eq, dimension], ?_⟩
  cases classified with
  | incompatible i conflict =>
    rintro ⟨x, solved⟩
    obtain ⟨below, nonzero⟩ := contradiction_eq_some conflict
    rw [← column_get x, ← satisfies_augmented_iff] at solved
    have residual := echelon.equivalent.satisfies solved i
    rw [Grid.residual_eq, Finset.sum_eq_zero, zero_sub, neg_eq_zero] at residual
    · exact ne_zero_of_isZero_false nonzero residual
    · intro j _
      rw [cleared i (rank_eq ▸ below) j j.isLt, zero_mul]
  | determined absent full x read =>
    have solved := solves_particular echelon rows (settled absent)
    rw [particular_of_full echelon (rank_eq.symm.trans full) rows read, column_get] at solved
    exact ⟨solved, fun y other => solves_unique (by omega) solved other⟩
  | indeterminate absent deficient =>
    have narrow := echelon.placed_le
    obtain ⟨y, another⟩ :=
      solves_another (by omega) (solves_particular echelon rows (settled absent))
    exact ⟨_, y, another⟩

theorem describes_of_inverse {s : LinearSystem ℚ} (direct : s.solvedByInverse = true) :
    ∃ found, s.solve.outcome = .ok found ∧ found.rank = s.coefficients.toMatrix.rank ∧
      s.Describes found.outcome := by
  obtain ⟨same, inverse, left, right, answered⟩ := solve_of_solvedByInverse direct
  have only := solves_iff_of_inverse same left right
  refine ⟨_, answered, ?_, (only _).mpr rfl, fun y => (only y).mp⟩
  obtain ⟨equations, unknowns, coefficients, constants⟩ := s
  dsimp only at same
  subst same
  have unit : IsUnit coefficients.toMatrix := by
    have left := congrArg Grid.toMatrix left
    have right := congrArg Grid.toMatrix right
    rw [Grid.toMatrix_mul, Grid.toMatrix_identity] at left right
    exact ⟨⟨_, _, right, left⟩, rfl⟩
  rw [Matrix.rank_of_isUnit _ unit, Fintype.card_fin]

/-- Whenever no number that the reduction and the classification test is close to zero without
being zero, the rank is that of the coefficients and the outcome tells how many solutions there
are: none, one, which is reported, or many. -/
theorem solve_classifies (s : LinearSystem ℚ) (decisive : ∀ x ∈ s.tests, Decisive x) :
    ∃ found, s.solve.outcome = .ok found ∧ found.rank = s.coefficients.toMatrix.rank ∧
      (found.outcome = .incompatible ↔ ¬∃ x, s.Solves x) ∧
      ((∃ x, found.outcome = .determined x) ↔ ∃! x, s.Solves x) ∧
      (∀ x, found.outcome = .determined x → s.Solves x) ∧
      ((∃ lines, found.outcome = .indeterminate lines) ↔
        ∃ x y, x ≠ y ∧ s.Solves x ∧ s.Solves y) := by
  have report : ∃ found, s.solve.outcome = .ok found ∧
      found.rank = s.coefficients.toMatrix.rank ∧ s.Describes found.outcome := by
    cases path : s.solvedByInverse with
    | true => exact describes_of_inverse path
    | false => exact describes_of_reduction path decisive
  obtain ⟨found, answered, rank_eq, described⟩ := report
  refine ⟨found, answered, rank_eq, ?_⟩
  cases outcome : found.outcome with
  | incompatible =>
    rw [outcome] at described
    have unsolvable : ¬∃ x, s.Solves x := described
    refine ⟨⟨fun _ => unsolvable, fun _ => rfl⟩, ?_, by simp, ?_⟩
    · exact ⟨by simp, fun ⟨x, solved, _⟩ => absurd ⟨x, solved⟩ unsolvable⟩
    · exact ⟨by simp, fun ⟨x, _, _, solved, _⟩ => absurd ⟨x, solved⟩ unsolvable⟩
  | determined x =>
    rw [outcome] at described
    obtain ⟨solved, unique⟩ := described
    refine ⟨?_, ?_, ?_, ?_⟩
    · exact ⟨by simp, fun none => absurd ⟨x, solved⟩ none⟩
    · exact ⟨fun _ => ⟨x, solved, unique⟩, fun _ => ⟨x, rfl⟩⟩
    · rintro y ⟨⟩
      exact solved
    · refine ⟨by simp, fun ⟨y, z, apart, first, second⟩ => absurd ?_ apart⟩
      rw [unique y first, unique z second]
  | indeterminate lines =>
    rw [outcome] at described
    obtain ⟨x, y, apart, first, second⟩ := described
    refine ⟨?_, ?_, by simp, ?_⟩
    · exact ⟨by simp, fun none => absurd ⟨x, first⟩ none⟩
    · refine ⟨by simp, fun ⟨z, _, unique⟩ => absurd ?_ apart⟩
      rw [unique x first, unique y second]
    · exact ⟨fun _ => ⟨x, y, apart, first, second⟩, fun _ => ⟨lines, rfl⟩⟩

/-- Three equations for four unknowns. The first unknown occurs in none of them, the second and
the third only in one proportion, and the last equation is the sum of the others. -/
def redundant : LinearSystem ℚ where
  equations := 3
  unknowns := 4
  coefficients := Grid.ofFn fun i j =>
    if j.val = 3 then (if i.val = 0 then 0 else 1) else j.val * (i.val + 1)
  constants := Grid.ofFn fun i _ => if i.val = 0 then 1 else i.val + 2

theorem redundant_solutions :
    (∀ x ∈ redundant.tests, Decisive x) ∧ redundant.coefficients.toMatrix.rank = 2 ∧
      ∃ x y, x ≠ y ∧ redundant.Solves x ∧ redundant.Solves y := by
  have decisive : ∀ x ∈ redundant.tests, Decisive x := by decide +kernel
  have computed : redundant.solve.outcome.map (fun found => (found.rank, found.outcome.kind)) =
      .ok (2, "compatible indeterminate") := by decide +kernel
  obtain ⟨found, answered, rank_eq, _, _, _, many⟩ := solve_classifies redundant decisive
  rw [answered] at computed
  obtain ⟨rank, kind⟩ := Prod.mk.inj (Except.ok.inj computed)
  refine ⟨decisive, rank_eq.symm.trans rank, many.mp ?_⟩
  cases outcome : found.outcome with
  | incompatible => simp [outcome, Outcome.kind] at kind
  | determined x => simp [outcome, Outcome.kind] at kind
  | indeterminate lines => exact ⟨lines, rfl⟩

end MatrixCalculator.LinearSystem
