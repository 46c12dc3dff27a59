import MatrixCalculator.Proofs.Checked.Elimination
import MatrixCalculator.Proofs.LinearSystem.Filling
import MatrixCalculator.Proofs.LinearSystem.Reduction

/-! Checked reduction of linear systems. The augmented matrix is written cell by cell, and the
walk along its rows and columns divides by pivots only. -/
namespace MatrixCalculator.Checked

def augment (a b : DenseMatrix Float) : Except Fault (DenseMatrix Float) := do
  let blank ← DenseMatrix.new a.rows (a.cols + 1) none
  let copied ← a.grid.entries.foldlM (fun m (i, j, x) => m.set i.val j.val x) blank
  (List.range a.rows).foldlM (fun m (i : Nat) => do m.set i a.cols (← b.get i 0)) copied

/-- Reduces from a row and a column on. A column that counts as zero there is passed over. -/
def reduceFrom (unknowns row col : Nat) (m : DenseMatrix Float) :
    Except Fault (DenseMatrix Float) :=
  if row < m.rows ∧ col < unknowns then do
    let p ← pivotRow m col row
    if ← isZero (← m.get p col) then reduceFrom unknowns row (col + 1) m
    else
      let swapped ← m.swapRows p row
      let factor ← divide 1 (← swapped.get row col)
      let scaled ← swapped.scaleRow row factor
      let cleared ← (List.range m.rows).foldlM (fun m i =>
        if i != row then clearRow row col (fun x => .ok (-x)) m i else return m) scaled
      reduceFrom unknowns (row + 1) (col + 1) cleared
  else return m
termination_by unknowns - col

variable {m n : Nat}

theorem augment_ofGrid (s : LinearSystem Float) :
    augment (DenseMatrix.ofGrid s.coefficients) (DenseMatrix.ofGrid s.constants) =
      .ok (DenseMatrix.ofGrid s.augmented) :=
  LinearSystem.augment_ofGrid s

theorem clearAround_ofGrid (r : Fin m) (c : Fin n) (g : Grid Float m (n + 1)) :
    (List.range m).foldlM (fun m i =>
        if i != r.val then clearRow r c (fun x => .ok (-x)) m i else return m)
        (DenseMatrix.ofGrid g) =
      .ok (DenseMatrix.ofGrid
        (g.addMultiples r (LinearSystem.Reduction.factorsAround r c g))) := by
  have rows : factors ((List.range m).filter (· != r.val)) c.castSucc (fun x => -x) g =
      LinearSystem.Reduction.factorsAround r c g := by
    funext i
    by_cases same : i = r
    · simp [factors, LinearSystem.Reduction.factorsAround, same]
    · have apart : i.val ≠ r.val := fun equal => same (Fin.ext equal)
      simp [factors, LinearSystem.Reduction.factorsAround, same, apart]
  have inside : ∀ i ∈ (List.range m).filter (· != r.val), i < m := fun i member =>
    List.mem_range.mp (List.mem_of_mem_filter member)
  rw [← List.foldlM_filter, ← rows]
  exact clearRows_ofGrid (fun _ => rfl) c.castSucc inside (List.nodup_range.filter _) (by simp) g

theorem reduceFrom_of_full {unknowns row col : Nat} {m : DenseMatrix Float}
    (full : ¬(row < m.rows ∧ col < unknowns)) : reduceFrom unknowns row col m = .ok m := by
  rw [reduceFrom, if_neg full]
  rfl

theorem reduceFrom_skipped {s : LinearSystem.Reduction Float m n} {c : Fin n}
    (left : s.placed < m)
    (zero : MatrixCalculator.isZero
      (s.grid.get (LinearSystem.Reduction.candidate s c left) c.castSucc) = true) :
    reduceFrom n s.placed c (DenseMatrix.ofGrid s.grid) =
      reduceFrom n s.placed (c + 1) (DenseMatrix.ofGrid s.grid) := by
  have best : pivotRow (DenseMatrix.ofGrid s.grid) c s.placed = _ :=
    LinearSystem.Reduction.searchPivot_candidate s c left
  have number := LinearSystem.Reduction.get_candidate s c left
  rw [reduceFrom, if_pos ⟨left, c.isLt⟩, best, ok_bind, number, ok_bind, isZero_eq_ok, ok_bind,
    if_pos zero]

theorem reduceFrom_advanced {s : LinearSystem.Reduction Float m n} {c : Fin n}
    (left : s.placed < m)
    (nonzero : MatrixCalculator.isZero
      (s.grid.get (LinearSystem.Reduction.candidate s c left) c.castSucc) = false) :
    reduceFrom n s.placed c (DenseMatrix.ofGrid s.grid) =
      reduceFrom n (s.placed + 1) (c + 1) (DenseMatrix.ofGrid
        (LinearSystem.Reduction.pivoted ⟨s.placed, left⟩
          (LinearSystem.Reduction.candidate s c left) c s.grid)) := by
  let r : Fin m := ⟨s.placed, left⟩
  let p := LinearSystem.Reduction.candidate s c left
  have wide : 0 < n + 1 := Nat.succ_pos n
  have best : pivotRow (DenseMatrix.ofGrid s.grid) c s.placed = .ok p.val :=
    LinearSystem.Reduction.searchPivot_candidate s c left
  have number : (DenseMatrix.ofGrid s.grid).get p c = .ok (s.grid.get p c.castSucc) :=
    LinearSystem.Reduction.get_candidate s c left
  have swapped : (DenseMatrix.ofGrid s.grid).swapRows p s.placed =
      .ok (DenseMatrix.ofGrid (s.grid.swapRows p r)) := DenseMatrix.swapRows_ofGrid s.grid wide p r
  have pivot : (DenseMatrix.ofGrid (s.grid.swapRows p r)).get s.placed c =
      .ok (s.grid.get p c.castSucc) := DenseMatrix.get_swapRows_ofGrid s.grid p r c.castSucc
  have scaled (factor : Float) : (DenseMatrix.ofGrid (s.grid.swapRows p r)).scaleRow s.placed factor =
      .ok (DenseMatrix.ofGrid ((s.grid.swapRows p r).scaleRow r factor)) :=
    DenseMatrix.scaleRow_ofGrid _ wide r factor
  rw [reduceFrom, if_pos ⟨left, c.isLt⟩, best, ok_bind, number, ok_bind, isZero_eq_ok, ok_bind,
    nonzero, if_neg Bool.false_ne_true, swapped, ok_bind, pivot, ok_bind,
    divide_eq_ok 1 (ne_zero_of_not_isZero nonzero), ok_bind, scaled, ok_bind]
  exact congrArg (· >>= _) (clearAround_ofGrid r c _)

theorem reduceFrom_ofGrid (k : Nat) (bound : k ≤ n) (s : LinearSystem.Reduction Float m n) :
    ∃ final, LinearSystem.Reduction.run ((List.finRange n).drop k) s = .ok final ∧
      reduceFrom n s.placed k (DenseMatrix.ofGrid s.grid) = .ok (DenseMatrix.ofGrid final.grid) := by
  induction bound using Nat.decreasingInduction generalizing s with
  | self =>
    refine ⟨s, ?_, reduceFrom_of_full fun inside => Nat.lt_irrefl _ inside.2⟩
    rw [List.drop_of_length_le (by simp)]
    rfl
  | of_succ k bound ih =>
    let c : Fin n := ⟨k, bound⟩
    obtain ⟨next, moved, kind⟩ := LinearSystem.Reduction.step_ok s c
    obtain ⟨final, reached, below⟩ := ih next
    refine ⟨final, ?_, ?_⟩
    · rw [List.drop_eq_getElem_cons (by simpa using bound), List.getElem_finRange,
        LinearSystem.Reduction.run, List.foldlM_cons]
      exact (congrArg (· >>= _) moved).trans reached
    · rw [← below]
      cases kind with
      | exhausted full =>
        have stop (col : Nat) : ¬(s.placed < (DenseMatrix.ofGrid s.grid).rows ∧ col < n) :=
          fun inside => Nat.not_lt_of_le full inside.1
        rw [reduceFrom_of_full (stop k), reduceFrom_of_full (stop (k + 1))]
      | skipped left zero => exact reduceFrom_skipped left zero
      | advanced left nonzero => exact reduceFrom_advanced left nonzero

end MatrixCalculator.Checked
