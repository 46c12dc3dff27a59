import MatrixCalculator.Grid.Elimination
import MatrixCalculator.Proofs.Grid.Pivot
import MatrixCalculator.Proofs.Grid.Sweep
import MatrixCalculator.Proofs.Grid.View
import Mathlib.Tactic.Ring

/-! Inverses in exact arithmetic. A determinant that does not count as zero vouches for a pivot
in every column, and the same pivots serve the inverse: its three sweeps leave a triangular grid,
one with unit diagonal, and the identity. -/
namespace MatrixCalculator.Grid

variable {α : Type} [Scalar α] {n : Nat}

theorem divisor_of_nonzero {x : α} (nonzero : (x == 0) = false) : divisor x = .ok x := by
  simp [divisor, nonzero]

/-- The grid with the pivot of column `k` in the diagonal and zeros below it. -/
def cleared (k : Fin n) (g : Grid α n n) : Grid α n n :=
  let swapped := g.swapRows (g.pivotRow k k) k
  swapped.addMultiples k (factorsBelow k (g.get (g.pivotRow k k) k) swapped)

theorem get_cleared_upper {k i : Fin n} (upper : ¬k < i) (j : Fin n) (g : Grid α n n) :
    (cleared k g).get i j = g.get (Equiv.swap (g.pivotRow k k) k i) j := by
  simp only [cleared, get_addMultiples, factorsBelow, if_neg upper, get_swapRows_swap]

theorem get_cleared (k i j : Fin n) (g : Grid ℚ n n) :
    (cleared k g).get i j =
      if k < i then g.get (Equiv.swap (g.pivotRow k k) k i) j -
        g.get (Equiv.swap (g.pivotRow k k) k i) k / g.get (g.pivotRow k k) k *
          g.get (g.pivotRow k k) j
      else g.get (Equiv.swap (g.pivotRow k k) k i) j := by
  simp only [cleared, get_addMultiples, factorsBelow, get_swapRows_swap, Equiv.swap_apply_right]
  split_ifs
  · ring
  · rfl

/-- Whether each of the columns shows a pivot that does not count as zero once the columns
before it have been cleared. -/
inductive HasPivots : List (Fin n) → Grid α n n → Prop
  | nil (g : Grid α n n) : HasPivots [] g
  | cons {k : Fin n} {rest : List (Fin n)} {g : Grid α n n}
      (nonzero : isZero (g.get (g.pivotRow k k) k) = false)
      (later : HasPivots rest (cleared k g)) : HasPivots (k :: rest) g

theorem HasPivots.uncons {k : Fin n} {g : Grid α n n}
    (pivots : HasPivots ((List.finRange n).drop k) g) :
    isZero (g.get (g.pivotRow k k) k) = false ∧
      HasPivots ((List.finRange n).drop (k + 1)) (cleared k g) := by
  rw [List.drop_eq_getElem_cons (by simp), List.getElem_finRange] at pivots
  cases pivots with
  | cons nonzero later => exact ⟨nonzero, later⟩

theorem eliminateFrom_cons {k : Fin n} {g : Grid α n n}
    (nonzero : isZero (g.get (g.pivotRow k k) k) = false) (rest : List (Fin n)) (product : α) :
    eliminateFrom (k :: rest) g product = eliminateFrom rest (cleared k g)
      ((if g.pivotRow k k = k then product else -product) * g.get (g.pivotRow k k) k) := by
  have pivot := divisor_of_nonzero (ne_zero_of_not_isZero nonzero)
  simp only [eliminateFrom, nonzero, get_swapRows_right, pivot]
  rfl

/-- An elimination ends with a pivot in every column or with the determinant zero. -/
theorem eliminateFrom_ok (columns : List (Fin n)) (g : Grid α n n) (product : α) :
    ∃ elimination, eliminateFrom columns g product = .ok elimination ∧
      (elimination.determinant = 0 ∨ HasPivots columns g) := by
  induction columns generalizing g product with
  | nil => exact ⟨_, rfl, .inr (.nil g)⟩
  | cons k rest ih =>
    by_cases zero : isZero (g.get (g.pivotRow k k) k) = true
    · exact ⟨⟨0, some k⟩, by simp [eliminateFrom, zero], .inl rfl⟩
    · have nonzero := Bool.eq_false_iff.mpr zero
      obtain ⟨elimination, reached, ended⟩ := ih (cleared k g)
        ((if g.pivotRow k k = k then product else -product) * g.get (g.pivotRow k k) k)
      refine ⟨elimination, ?_, ended.imp_right (.cons nonzero)⟩
      rw [← reached]
      exact eliminateFrom_cons nonzero rest product

theorem determinant_outcome (g : Grid α n n) :
    g.determinant.outcome = g.eliminate.map (·.determinant) := by
  simp only [Grid.determinant, Calculation.outcome_bind, Calculation.outcome_ofExcept]
  cases g.eliminate with
  | error fault => rfl
  | ok elimination =>
    obtain ⟨determinant, pivotless⟩ := elimination
    cases pivotless <;> rfl

theorem determinant_cases (g : Grid α n n) :
    ∃ size, g.determinant.outcome = .ok size ∧ (size = 0 ∨ HasPivots (List.finRange n) g) := by
  obtain ⟨elimination, reached, ended⟩ := eliminateFrom_ok (List.finRange n) g 1
  refine ⟨elimination.determinant, ?_, ended⟩
  rw [determinant_outcome]
  exact congrArg (Except.map _) reached

theorem determinant_ok (g : Grid ℚ n n) :
    ∃ size, g.determinant.outcome = .ok size ∧
      (isZero size = false → HasPivots (List.finRange n) g) := by
  obtain ⟨size, reached, ended⟩ := determinant_cases g
  refine ⟨size, reached, fun nonzero => ended.resolve_left fun zero => ?_⟩
  simp [zero] at nonzero

def ZeroBelow (k : Nat) (g : Grid ℚ n n) : Prop :=
  ∀ i j : Fin n, j.val < k → j < i → g.get i j = 0

theorem cleared_zeroBelow {k : Fin n} {g : Grid ℚ n n} (pivot : g.get (g.pivotRow k k) k ≠ 0)
    (zeros : ZeroBelow k g) : ZeroBelow (k + 1) (cleared k g) := by
  intro i j before lower
  have low := start_le_pivotRow g k k
  rw [get_cleared]
  rcases Nat.lt_succ_iff_lt_or_eq.mp before with earlier | same
  · have pivotRow : g.get (g.pivotRow k k) j = 0 := zeros _ j earlier (lt_of_lt_of_le earlier low)
    have row : g.get (Equiv.swap (g.pivotRow k k) k i) j = 0 := by
      rw [Equiv.swap_apply_def]
      split_ifs
      · exact zeros k j earlier earlier
      · exact pivotRow
      · exact zeros i j earlier lower
    rw [pivotRow, row, mul_zero, sub_zero, ite_self]
  · have same : j = k := Fin.ext same
    subst same
    rw [if_pos lower, div_mul_cancel₀ _ pivot, sub_self]

theorem get_cleared_before {j k : Fin n} (before : j < k) (g : Grid α n n) :
    (cleared k g).get j j = g.get j j := by
  have low := start_le_pivotRow g k k
  rw [get_cleared_upper before.asymm,
    Equiv.swap_apply_of_ne_of_ne (before.trans_le low).ne before.ne]

theorem get_cleared_self (k : Fin n) (g : Grid α n n) :
    (cleared k g).get k k = g.get (g.pivotRow k k) k := by
  rw [get_cleared_upper (lt_irrefl k), Equiv.swap_apply_right]

theorem cleared_diagonal (P : α → Prop) {k : Fin n} {g : Grid α n n}
    (pivot : P (g.get (g.pivotRow k k) k)) (diagonal : ∀ j : Fin n, j.val < k → P (g.get j j))
    (j : Fin n) (before : j.val < k + 1) : P ((cleared k g).get j j) := by
  rcases Nat.lt_succ_iff_lt_or_eq.mp before with earlier | same
  · rw [get_cleared_before earlier]
    exact diagonal j earlier
  · rw [Fin.ext same, get_cleared_self]
    exact pivot

namespace Tandem

def cleared (k : Fin n) (t : Tandem α n) : Tandem α n :=
  let swapped := t.swapRows (t.work.pivotRow k k) k
  swapped.addMultiples k (factorsBelow k (t.work.get (t.work.pivotRow k k) k) swapped.work)

theorem clearBelow_of_nonzero {t : Tandem α n} {k : Fin n}
    (nonzero : (t.work.get (t.work.pivotRow k k) k == 0) = false) :
    t.clearBelow k = .ok (t.cleared k) := by
  unfold clearBelow
  simp only [Tandem.swapRows, get_swapRows_right, divisor_of_nonzero nonzero]
  rfl

theorem normalize_of_nonzero {t : Tandem α n} {k : Fin n}
    (nonzero : (t.work.get k k == 0) = false) :
    t.normalize k = .ok (t.scaleRow k (1 / t.work.get k k)) := by
  unfold normalize
  rw [divisor_of_nonzero nonzero]
  rfl

/-- Whether the record holds the row operations that turn a grid into the working grid. -/
def Tracks (g : Grid ℚ n n) (t : Tandem ℚ n) : Prop :=
  t.record.mul g = t.work

theorem clearBelow_eq_ok {t : Tandem ℚ n} {k : Fin n}
    (pivot : t.work.get (t.work.pivotRow k k) k ≠ 0) :
    ∃ next, t.clearBelow k = .ok next ∧ next.work = Grid.cleared k t.work ∧
      ∀ g, Tracks g t → Tracks g next := by
  refine ⟨t.cleared k, clearBelow_of_nonzero (beq_false_of_ne pivot), rfl, ?_⟩
  intro g tracks
  simp only [Tracks, Tandem.cleared, Tandem.addMultiples, Tandem.swapRows, addMultiples_mul,
    swapRows_mul]
  rw [tracks]

theorem normalize_eq_ok {t : Tandem ℚ n} {k : Fin n} (pivot : t.work.get k k ≠ 0) :
    ∃ next, t.normalize k = .ok next ∧ next.work = t.work.scaleRow k (1 / t.work.get k k) ∧
      ∀ g, Tracks g t → Tracks g next := by
  refine ⟨t.scaleRow k (1 / t.work.get k k), normalize_of_nonzero (beq_false_of_ne pivot), rfl, ?_⟩
  intro g tracks
  simp only [Tracks, Tandem.scaleRow, scaleRow_mul]
  rw [tracks]

theorem clearAbove_tracks {t : Tandem ℚ n} {k : Fin n} {g : Grid ℚ n n} (tracks : Tracks g t) :
    Tracks g (t.clearAbove k) := by
  simp only [Tracks, clearAbove, Tandem.addMultiples, addMultiples_mul]
  rw [tracks]

theorem get_clearAbove (t : Tandem ℚ n) (k i j : Fin n) :
    (t.clearAbove k).work.get i j =
      if i < k then t.work.get i j - t.work.get i k * t.work.get k j else t.work.get i j := by
  simp only [clearAbove, Tandem.addMultiples, get_addMultiples, factorsAbove]
  split_ifs
  · ring
  · rfl

structure Clearing (g : Grid ℚ n n) (k : Nat) (t : Tandem ℚ n) : Prop where
  pivots : HasPivots ((List.finRange n).drop k) t.work
  tracks : Tracks g t
  zeros : ZeroBelow k t.work
  diagonal : ∀ j : Fin n, j.val < k → t.work.get j j ≠ 0

theorem Clearing.start {g : Grid ℚ n n} (pivots : HasPivots (List.finRange n) g) :
    Clearing g 0 ⟨g, identity n⟩ where
  pivots := pivots
  tracks := identity_mul g
  zeros _ _ before := absurd before (Nat.not_lt_zero _)
  diagonal _ before := absurd before (Nat.not_lt_zero _)

theorem Clearing.step {g : Grid ℚ n n} {k : Fin n} {t : Tandem ℚ n} (inv : Clearing g k t) :
    ∃ next, t.clearBelow k = .ok next ∧ Clearing g (k + 1) next := by
  obtain ⟨nonzero, later⟩ := inv.pivots.uncons
  have pivot : t.work.get (t.work.pivotRow k k) k ≠ 0 := ne_zero_of_isZero_false nonzero
  obtain ⟨next, reached, work, kept⟩ := clearBelow_eq_ok pivot
  refine ⟨next, reached, ?_, kept g inv.tracks, ?_, ?_⟩
  · rw [work]
    exact later
  · rw [work]
    exact cleared_zeroBelow pivot inv.zeros
  · rw [work]
    exact cleared_diagonal (· ≠ 0) pivot inv.diagonal

structure Normalizing (g : Grid ℚ n n) (k : Nat) (t : Tandem ℚ n) : Prop where
  tracks : Tracks g t
  zeros : ZeroBelow n t.work
  diagonal : ∀ j, t.work.get j j ≠ 0
  ones : ∀ j : Fin n, j.val < k → t.work.get j j = 1

theorem Normalizing.start {g : Grid ℚ n n} {t : Tandem ℚ n} (cleared : Clearing g n t) :
    Normalizing g 0 t where
  tracks := cleared.tracks
  zeros := cleared.zeros
  diagonal j := cleared.diagonal j j.isLt
  ones _ before := absurd before (Nat.not_lt_zero _)

theorem Normalizing.step {g : Grid ℚ n n} {k : Fin n} {t : Tandem ℚ n}
    (inv : Normalizing g k t) : ∃ next, t.normalize k = .ok next ∧ Normalizing g (k + 1) next := by
  obtain ⟨next, reached, work, kept⟩ := normalize_eq_ok (inv.diagonal k)
  have pivot : next.work.get k k = 1 := by
    rw [work, get_scaleRow, if_pos rfl, mul_one_div_cancel (inv.diagonal k)]
  have other (i j : Fin n) (apart : i ≠ k) : next.work.get i j = t.work.get i j := by
    rw [work, get_scaleRow, if_neg apart]
  refine ⟨next, reached, kept g inv.tracks, ?_, ?_, ?_⟩
  · intro i j before lower
    rw [work, get_scaleRow, inv.zeros i j before lower, zero_mul, ite_self]
  · intro j
    by_cases same : j = k
    · rw [same, pivot]
      exact one_ne_zero
    · rw [other j j same]
      exact inv.diagonal j
  · intro j before
    by_cases same : j = k
    · rw [same, pivot]
    · rw [other j j same]
      exact inv.ones j (Nat.lt_of_le_of_ne (Nat.le_of_lt_succ before) (Fin.val_ne_of_ne same))

/-- What holds after the columns from `k` on of a triangular grid with unit diagonal have been
cleared above the diagonal. -/
structure Diagonal (g : Grid ℚ n n) (k : Nat) (t : Tandem ℚ n) : Prop where
  tracks : Tracks g t
  zeros : ZeroBelow n t.work
  ones : ∀ j, t.work.get j j = 1
  above : ∀ i j : Fin n, k ≤ j.val → i < j → t.work.get i j = 0

theorem Diagonal.start {g : Grid ℚ n n} {t : Tandem ℚ n} (normalized : Normalizing g n t) :
    Diagonal g n t where
  tracks := normalized.tracks
  zeros := normalized.zeros
  ones j := normalized.ones j j.isLt
  above _ j after := absurd after (Nat.not_le.mpr j.isLt)

theorem Diagonal.step {g : Grid ℚ n n} {k : Fin n} {t : Tandem ℚ n}
    (inv : Diagonal g (k + 1) t) : Diagonal g k (t.clearAbove k) := by
  refine ⟨clearAbove_tracks inv.tracks, ?_, ?_, ?_⟩
  · intro i j inside lower
    rw [get_clearAbove, inv.zeros i j inside lower]
    split_ifs with upper
    · rw [inv.zeros k j inside (lower.trans upper), mul_zero, sub_zero]
    · rfl
  · intro j
    rw [get_clearAbove, inv.ones j]
    split_ifs with upper
    · rw [inv.zeros k j j.isLt upper, mul_zero, sub_zero]
    · rfl
  · intro i j after upper
    rw [get_clearAbove]
    rcases Nat.eq_or_lt_of_le after with same | later
    · have same : k = j := Fin.ext same
      subst same
      rw [if_pos upper, inv.ones k, mul_one, sub_self]
    · rw [inv.above i j later upper, inv.above k j later later, mul_zero, sub_zero, ite_self]

theorem Diagonal.work_eq {g : Grid ℚ n n} {t : Tandem ℚ n} (inv : Diagonal g 0 t) :
    t.work = identity n := by
  apply ext
  intro i j
  rw [get_identity]
  rcases lt_trichotomy i j with upper | same | lower
  · rw [if_neg upper.ne, inv.above i j (Nat.zero_le _) upper]
  · rw [if_pos same, same, inv.ones]
  · rw [if_neg lower.ne', inv.zeros i j j.isLt lower]

theorem reduce_ok {g : Grid ℚ n n} (pivots : HasPivots (List.finRange n) g) :
    ∃ t, reduce ⟨g, identity n⟩ = .ok t ∧ t.record.mul g = identity n := by
  obtain ⟨triangular, first, cleared⟩ :=
    foldlM_finRange clearBelow (Clearing g) (fun _ _ inv => inv.step) (.start pivots)
  obtain ⟨normalized, second, ones⟩ :=
    foldlM_finRange normalize (Normalizing g) (fun _ _ inv => inv.step) (.start cleared)
  have diagonal :=
    foldl_reverse_finRange clearAbove (Diagonal g) (fun _ _ inv => inv.step) (.start ones)
  refine ⟨_, ?_, diagonal.tracks.trans diagonal.work_eq⟩
  unfold reduce
  rw [first]
  show ((List.finRange n).foldlM normalize triangular >>= _) = _
  rw [second]
  rfl

end Tandem

/-- A grid whose determinant does not count as zero has an inverse from both sides. -/
theorem inverse_ok {g : Grid ℚ n n} {size : ℚ} (computed : g.determinant.outcome = .ok size)
    (nonzero : isZero size = false) :
    ∃ h, g.inverse.outcome = .ok h ∧ h.mul g = identity n ∧ g.mul h = identity n := by
  obtain ⟨other, found, pivots⟩ := determinant_ok g
  cases Except.ok.inj (found.symm.trans computed)
  obtain ⟨t, reached, left⟩ := Tandem.reduce_ok (pivots nonzero)
  refine ⟨t.record, ?_, left, mul_eq_identity_comm left⟩
  simp only [Grid.inverse, Calculation.outcome_bind, computed]
  show (if isZero size = true then Calculation.fail Fault.singular else _).outcome = _
  rw [if_neg (by simp [nonzero]), Calculation.outcome_bind, Calculation.outcome_ofExcept, reached]
  rfl

end MatrixCalculator.Grid
