import MatrixCalculator.LinearSystem
import MatrixCalculator.Proofs.DenseMatrix.RowOperation
import MatrixCalculator.Proofs.Grid.Pivot
import MatrixCalculator.Proofs.Grid.RowEquivalence
import MatrixCalculator.Proofs.Grid.Sweep

/-! The reduction of augmented grids in exact arithmetic. It always succeeds, every step is an
equivalence of rows, and the columns in which pivots have been placed stay unit columns. Nothing
is assumed here on how close the entries come to the tolerance. -/
namespace MatrixCalculator.LinearSystem.Reduction

variable {α : Type} [Scalar α] {m n : Nat}

def pivoted (r p : Fin m) (c : Fin n) (g : Grid α m (n + 1)) : Grid α m (n + 1) :=
  let scaled := (g.swapRows p r).scaleRow r (1 / g.get p c.castSucc)
  scaled.addMultiples r (factorsAround r c scaled)

theorem place_eq_ok {r p : Fin m} {c : Fin n} {g : Grid α m (n + 1)}
    (nonzero : (g.get p c.castSucc == 0) = false) : place r p c g = .ok (pivoted r p c g) := by
  have top := Grid.get_swapRows_right p r c.castSucc g
  have divides : Grid.divisor (g.get p c.castSucc) = .ok (g.get p c.castSucc) := by
    simp [Grid.divisor, nonzero]
  unfold place pivoted
  simp only [top, divides]
  rfl

theorem get_pivoted (r p i : Fin m) (c : Fin n) (j : Fin (n + 1)) (g : Grid ℚ m (n + 1)) :
    (pivoted r p c g).get i j =
      if i = r then g.get p j / g.get p c.castSucc
      else g.get (Equiv.swap p r i) j -
        g.get (Equiv.swap p r i) c.castSucc * (g.get p j / g.get p c.castSucc) := by
  have top (j : Fin (n + 1)) := Grid.get_swapRows_right p r j g
  by_cases pivot : i = r
  · subst pivot
    simp [pivoted, factorsAround, top, div_eq_mul_inv]
  · simp only [pivoted, factorsAround, Grid.get_addMultiples, Grid.get_scaleRow, pivot, if_false,
      if_true, top, Grid.get_swapRows_swap]
    ring

theorem get_pivoted_column {r p : Fin m} {c : Fin n} {g : Grid ℚ m (n + 1)}
    (nonzero : g.get p c.castSucc ≠ 0) (i : Fin m) :
    (pivoted r p c g).get i c.castSucc = if i = r then 1 else 0 := by
  rw [get_pivoted, div_self nonzero, mul_one, sub_self]

/-- A column in which both rows of the exchange are zero does not change. -/
theorem get_pivoted_of_zero {r p : Fin m} {j : Fin (n + 1)} {g : Grid ℚ m (n + 1)}
    (upper : g.get r j = 0) (lower : g.get p j = 0) (c : Fin n) (i : Fin m) :
    (pivoted r p c g).get i j = g.get i j := by
  rw [get_pivoted, lower, zero_div, mul_zero, sub_zero]
  split_ifs with pivot
  · rw [pivot, upper]
  · rw [Equiv.swap_apply_def, if_neg pivot]
    split_ifs with exchanged
    · rw [exchanged, upper, lower]
    · rfl

theorem rowEquivalent_pivoted {r p : Fin m} {c : Fin n} {g : Grid ℚ m (n + 1)}
    (nonzero : g.get p c.castSucc ≠ 0) : Grid.RowEquivalent g (pivoted r p c g) := by
  have swapped := Grid.RowEquivalent.swapRows p r g
  have scaled := Grid.RowEquivalent.scaleRow r (one_div_ne_zero nonzero) (g.swapRows p r)
  exact (swapped.trans scaled).trans (.addMultiples r _ (by simp [factorsAround]) _)

/-- A vector that solves the pivot row leaves the other rows the residuals they had before. -/
theorem residual_pivoted {r p : Fin m} {c : Fin n} {g : Grid ℚ m (n + 1)}
    (nonzero : g.get p c.castSucc ≠ 0) {x : Fin n → ℚ}
    (solved : (pivoted r p c g).residual x r = 0) (i : Fin m) :
    (pivoted r p c g).residual x i = g.residual x (Equiv.swap p r i) := by
  let column := g.mul (Grid.homogeneous x)
  let scaled := (column.swapRows p r).scaleRow r (1 / g.get p c.castSucc)
  have entry (i : Fin m) : (pivoted r p c g).residual x i =
      (scaled.addMultiples r (factorsAround r c
        ((g.swapRows p r).scaleRow r (1 / g.get p c.castSucc)))).get i 0 := by
    simp only [Grid.residual, pivoted, Grid.addMultiples_mul, Grid.scaleRow_mul, Grid.swapRows_mul]
    rfl
  have pivot : scaled.get r 0 = 0 := by
    rw [entry, Grid.get_addMultiples] at solved
    simpa [factorsAround] using solved
  by_cases same : i = r
  · subst same
    rw [solved]
    rw [Grid.get_scaleRow, if_pos rfl, Grid.get_swapRows_swap] at pivot
    exact ((mul_eq_zero.mp pivot).resolve_right (one_div_ne_zero nonzero)).symm
  · rw [entry, Grid.get_addMultiples]
    simp only [factorsAround, same, if_false, pivot, mul_zero, add_zero]
    rw [Grid.get_scaleRow, if_neg same, Grid.get_swapRows_swap]
    rfl

/-- The row whose number in column `c` is tested before a pivot is placed there. -/
def candidate (s : Reduction α m n) (c : Fin n) (left : s.placed < m) :
    Fin m :=
  s.grid.pivotRow c.castSucc ⟨s.placed, left⟩

theorem searchPivot_candidate (s : Reduction α m n) (c : Fin n) (left : s.placed < m) :
    DenseMatrix.searchPivot (DenseMatrix.ofGrid s.grid) c s.placed =
      .ok (candidate s c left).val :=
  DenseMatrix.searchPivot_ofGrid s.grid c.castSucc ⟨s.placed, left⟩

theorem get_candidate (s : Reduction α m n) (c : Fin n) (left : s.placed < m) :
    (DenseMatrix.ofGrid s.grid).get (candidate s c left) c =
      .ok (s.grid.get (candidate s c left) c.castSucc) :=
  DenseMatrix.get_ofGrid s.grid _ c.castSucc

inductive Step (s : Reduction α m n) (c : Fin n) : Reduction α m n → Prop
  | exhausted (full : m ≤ s.placed) : Step s c s
  | skipped (left : s.placed < m)
      (zero : isZero (s.grid.get (candidate s c left) c.castSucc) = true) : Step s c s
  | advanced (left : s.placed < m)
      (nonzero : isZero (s.grid.get (candidate s c left) c.castSucc) = false) :
      Step s c ⟨pivoted ⟨s.placed, left⟩ (candidate s c left) c s.grid, s.placed + 1⟩

theorem step_ok (s : Reduction α m n) (c : Fin n) :
    ∃ next, step s c = .ok next ∧ Step s c next := by
  unfold step
  split
  · next left =>
    dsimp only
    split
    · next zero => exact ⟨s, rfl, .skipped left zero⟩
    · next nonzero =>
      have nonzero := Bool.eq_false_iff.mpr nonzero
      refine ⟨_, ?_, .advanced left nonzero⟩
      rw [place_eq_ok (ne_zero_of_not_isZero nonzero)]
      rfl
  · next full => exact ⟨s, rfl, .exhausted (Nat.le_of_not_lt full)⟩

/-- What holds before column `k` is treated: the pivots stand in ascending columns before `k`,
one in each row from the top, their columns are unit columns, and the grid is row equivalent to
the initial one. -/
structure Echelon (initial : Grid ℚ m (n + 1)) (k : Nat) (s : Reduction ℚ m n)
    (pivots : List (Fin n)) : Prop where
  count : pivots.length = s.placed
  fits : s.placed ≤ m
  visited : ∀ c ∈ pivots, c.val < k
  ascending : pivots.Pairwise (· < ·)
  unit : ∀ q c, pivots[q]? = some c →
    ∀ i : Fin m, s.grid.get i c.castSucc = if i.val = q then 1 else 0
  equivalent : Grid.RowEquivalent initial s.grid

namespace Echelon

variable {initial : Grid ℚ m (n + 1)} {k : Nat} {s next : Reduction ℚ m n}
  {pivots : List (Fin n)}

theorem start (initial : Grid ℚ m (n + 1)) : Echelon initial 0 ⟨initial, 0⟩ [] where
  count := rfl
  fits := Nat.zero_le m
  visited := by simp
  ascending := .nil
  unit := by simp
  equivalent := .refl initial

theorem mono (inv : Echelon initial k s pivots) : Echelon initial (k + 1) s pivots :=
  { inv with visited := fun c member => Nat.lt_succ_of_lt (inv.visited c member) }

theorem unit_below (inv : Echelon initial k s pivots) {c : Fin n} (member : c ∈ pivots)
    {i : Fin m} (below : s.placed ≤ i.val) : s.grid.get i c.castSucc = 0 := by
  obtain ⟨q, inside, same⟩ := List.mem_iff_getElem.mp member
  rw [inv.unit q c (by rw [List.getElem?_eq_getElem inside, same]), if_neg]
  have := inv.count
  omega

theorem placed_le (inv : Echelon initial k s pivots) : s.placed ≤ n := by
  rw [← inv.count]
  have distinct : pivots.Nodup := inv.ascending.imp fun less => less.ne
  simpa using distinct.length_le_card

/-- There are no more pivots than columns that have been treated. -/
theorem placed_le_treated (inv : Echelon initial k s pivots) : s.placed ≤ k := by
  have distinct : (pivots.map Fin.val).Nodup :=
    List.pairwise_map.mpr (inv.ascending.imp fun less => Nat.ne_of_lt less)
  have treated : pivots.map Fin.val ⊆ List.range k := by
    intro c member
    obtain ⟨d, old, rfl⟩ := List.mem_map.mp member
    exact List.mem_range.mpr (inv.visited d old)
  rw [← inv.count]
  simpa using (distinct.subperm treated).length_le

/-- A pivot placed in column `c` joins those before it. -/
theorem advance {c : Fin n} (inv : Echelon initial c s pivots) (left : s.placed < m)
    (nonzero : isZero (s.grid.get (candidate s c left) c.castSucc) = false) :
    Echelon initial (c + 1)
      ⟨pivoted ⟨s.placed, left⟩ (candidate s c left) c s.grid, s.placed + 1⟩ (pivots ++ [c]) := by
  have pivot := ne_zero_of_isZero_false nonzero
  have low : s.placed ≤ (candidate s c left).val :=
    Grid.start_le_pivotRow s.grid c.castSucc ⟨s.placed, left⟩
  refine ⟨?_, left, ?_, ?_, ?_, inv.equivalent.trans (rowEquivalent_pivoted pivot)⟩
  · rw [List.length_append, inv.count]
    rfl
  · intro d member
    rcases List.mem_append.mp member with old | new
    · exact Nat.lt_succ_of_lt (inv.visited d old)
    · rw [List.mem_singleton.mp new]
      exact Nat.lt_succ_self _
  · refine List.pairwise_append.mpr ⟨inv.ascending, List.pairwise_singleton _ _, ?_⟩
    intro d old e new
    rw [List.mem_singleton.mp new]
    exact inv.visited d old
  · intro q d found i
    rcases Nat.lt_or_ge q pivots.length with old | new
    · rw [List.getElem?_append_left old] at found
      have member : d ∈ pivots := List.mem_of_getElem? found
      rw [get_pivoted_of_zero (inv.unit_below member (Nat.le_refl _))
        (inv.unit_below member low)]
      exact inv.unit q d found i
    · rw [List.getElem?_append_right new, List.getElem?_singleton] at found
      split at found
      · next first =>
        cases Option.some.inj found
        rw [get_pivoted_column pivot]
        have row : q = s.placed := by have := inv.count; omega
        simp only [row, Fin.ext_iff]
      · contradiction

theorem step {c : Fin n} (inv : Echelon initial c s pivots) (moved : Step s c next) :
    ∃ later, Echelon initial (c + 1) next later := by
  cases moved with
  | exhausted full => exact ⟨pivots, inv.mono⟩
  | skipped left zero => exact ⟨pivots, inv.mono⟩
  | advanced left nonzero => exact ⟨pivots ++ [c], inv.advance left nonzero⟩

end Echelon

/-- Whether every vector that solves the pivot rows of a state leaves each row the residual of
one initial row, each row another one. -/
def Follows (initial : Grid ℚ m (n + 1)) (s : Reduction ℚ m n) : Prop :=
  ∃ origin : Equiv.Perm (Fin m), ∀ x : Fin n → ℚ,
    (∀ i : Fin m, i.val < s.placed → s.grid.residual x i = 0) →
      ∀ i, s.grid.residual x i = initial.residual x (origin i)

theorem Follows.start (initial : Grid ℚ m (n + 1)) : Follows initial ⟨initial, 0⟩ :=
  ⟨Equiv.refl _, fun _ _ _ => rfl⟩

theorem Follows.step {initial : Grid ℚ m (n + 1)} {s next : Reduction ℚ m n} {c : Fin n}
    (follows : Follows initial s) (moved : Step s c next) : Follows initial next := by
  cases moved with
  | exhausted full => exact follows
  | skipped left zero => exact follows
  | advanced left nonzero =>
    obtain ⟨origin, same⟩ := follows
    have pivot := ne_zero_of_isZero_false nonzero
    let r : Fin m := ⟨s.placed, left⟩
    have low : r ≤ candidate s c left := Grid.start_le_pivotRow s.grid c.castSucc r
    refine ⟨(Equiv.swap (candidate s c left) r).trans origin, fun x solved i => ?_⟩
    have moved := residual_pivoted pivot (solved r (Nat.lt_succ_self _))
    rw [moved, same x, Equiv.trans_apply]
    intro q above
    have apart : q ≠ candidate s c left ∧ q ≠ r := by
      constructor <;> rintro rfl
      · exact absurd above (Nat.not_lt.mpr low)
      · exact absurd above (Nat.lt_irrefl _)
    have kept := moved q
    rw [Equiv.swap_apply_of_ne_of_ne apart.1 apart.2, solved q (Nat.lt_succ_of_lt above)] at kept
    exact kept.symm

def Reached (initial : Grid ℚ m (n + 1)) (k : Nat) (s : Reduction ℚ m n) : Prop :=
  Follows initial s ∧ ∃ pivots, Echelon initial k s pivots

theorem Reached.start (initial : Grid ℚ m (n + 1)) : Reached initial 0 ⟨initial, 0⟩ :=
  ⟨.start initial, [], .start initial⟩

theorem Reached.step {initial : Grid ℚ m (n + 1)} {s next : Reduction ℚ m n} {c : Fin n}
    (reached : Reached initial c s) (moved : Step s c next) : Reached initial (c + 1) next := by
  obtain ⟨follows, pivots, echelon⟩ := reached
  exact ⟨follows.step moved, echelon.step moved⟩

theorem run_ok (initial : Grid ℚ m (n + 1)) :
    ∃ final, run (List.finRange n) ⟨initial, 0⟩ = .ok final ∧ Reached initial n final := by
  refine Grid.foldlM_finRange Reduction.step (Reached initial) ?_ (.start initial)
  intro c s reached
  obtain ⟨next, moved, kind⟩ := step_ok s c
  exact ⟨next, moved, reached.step kind⟩

end MatrixCalculator.LinearSystem.Reduction
