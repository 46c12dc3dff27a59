import MatrixCalculator.Proofs.LinearSystem.Reduction
import MatrixCalculator.Proofs.Watched.RowOperation

/-! Watched reduction of augmented matrices. A pivot is tested for zero in the row where it is
found, brought up, and divided by. -/
namespace MatrixCalculator.Watched

open DenseMatrix (addRows addRows_eq searchPivot)
open LinearSystem.Reduction (Step candidate factorsAround get_candidate pivoted searchPivot_candidate)

variable {α : Type} [Scalar α] {m n : Nat}

/-- Reduces in some columns from left to right, with the next pivot in the given row. A column
that counts as zero from that row on is passed over. -/
def reduceFrom : List Nat → Nat → DenseMatrix α → Run α (DenseMatrix α)
  | [], _, m => return m
  | col :: rest, row, m =>
    if row < m.rows then do
      let p ← searchPivot m col row
      if ← test (← m.get p col) then reduceFrom rest row m
      else
        let swapped ← exchange m p row
        let factor ← quotient 1 (← swapped.get row col)
        let scaled ← change (swapped.scaleRow row factor)
        let cleared ← ((List.range m.rows).filter (· != row)).foldlM
          (clearRow row col fun x => return -x) scaled
        reduceFrom rest (row + 1) cleared
    else return m

def rowsAround (r : Fin m) : List (Fin m) :=
  (List.finRange m).filter fun i => i.val != r.val

theorem map_val_rowsAround (r : Fin m) :
    (rowsAround r).map Fin.val = (List.range m).filter (· != r.val) := by
  rw [← List.map_coe_finRange_eq_range, List.filter_map]
  rfl

theorem mem_rowsAround {r i : Fin m} : i ∈ rowsAround r ↔ i ≠ r := by
  simp [rowsAround, Fin.ext_iff]

theorem nodup_rowsAround (r : Fin m) : (rowsAround r).Nodup :=
  (List.nodup_finRange m).filter _

theorem addRows_around (r : Fin m) (c : Fin n) (g : Grid α m (n + 1)) :
    addRows r (fun i => -(g.get i c.castSucc)) (rowsAround r) g =
      g.addMultiples r (factorsAround r c g) := by
  rw [addRows_eq (nodup_rowsAround r) (by simp [mem_rowsAround])]
  congr 1
  funext i
  simp [factorsAround, mem_rowsAround]

theorem clearAround_ofGrid (r : Fin m) (c : Fin n) (g : Grid α m (n + 1)) :
    ((List.range m).filter (· != r.val)).foldlM (clearRow r c fun x => return -x)
        (DenseMatrix.ofGrid g) =
      done (sweep r (fun i => -(g.get i c.castSucc)) [] (rowsAround r) g)
        (DenseMatrix.ofGrid (g.addMultiples r (factorsAround r c g))) := by
  have negates (x : α) : (pure (-x) : Run α α) = done [] (-x) := rfl
  rw [← map_val_rowsAround, ← addRows_around]
  exact clearRows_ofGrid negates c.castSucc g (nodup_rowsAround r) fun _ _ => rfl

theorem reduceFrom_full {row : Nat} {m : DenseMatrix α} (full : m.rows ≤ row)
    (columns : List Nat) : reduceFrom columns row m = done [] m := by
  cases columns with
  | nil => rfl
  | cons col rest => exact if_neg (Nat.not_lt.mpr full)

section Columns

variable {s : LinearSystem.Reduction α m n} {c : Fin n} {rest : List Nat}

/-- A column in which a pivot is to be placed is searched and its best number is tested. -/
theorem reduceFrom_tested (left : s.placed < m) :
    reduceFrom (c :: rest) s.placed (DenseMatrix.ofGrid s.grid) =
      (test (s.grid.get (candidate s c left) c.castSucc) >>= fun zero =>
        if zero then reduceFrom rest s.placed (DenseMatrix.ofGrid s.grid)
        else do
          let swapped ← exchange (DenseMatrix.ofGrid s.grid) (candidate s c left) s.placed
          let factor ← quotient 1 (← swapped.get s.placed c)
          let scaled ← change (swapped.scaleRow s.placed factor)
          let cleared ← ((List.range m).filter (· != s.placed)).foldlM
            (clearRow s.placed c fun x => return -x) scaled
          reduceFrom rest (s.placed + 1) cleared) := by
  have inside : s.placed < (DenseMatrix.ofGrid s.grid).rows := left
  rw [reduceFrom, if_pos inside, read_bind (searchPivot_candidate s c left),
    read_bind (get_candidate s c left)]
  rfl

theorem reduceFrom_skipped (left : s.placed < m)
    (zero : isZero (s.grid.get (candidate s c left) c.castSucc) = true) :
    reduceFrom (c :: rest) s.placed (DenseMatrix.ofGrid s.grid) =
      (reduceFrom rest s.placed (DenseMatrix.ofGrid s.grid)).behind
        [.tested (s.grid.get (candidate s c left) c.castSucc) true] := by
  rw [reduceFrom_tested left, test, zero, done_bind, if_pos rfl]

theorem reduceFrom_advanced (left : s.placed < m)
    (nonzero : isZero (s.grid.get (candidate s c left) c.castSucc) = false) :
    ∃ events, Vouches events ∧ reduceFrom (c :: rest) s.placed (DenseMatrix.ofGrid s.grid) =
      (reduceFrom rest (s.placed + 1) (DenseMatrix.ofGrid
        (pivoted ⟨s.placed, left⟩ (candidate s c left) c s.grid))).behind events := by
  let r : Fin m := ⟨s.placed, left⟩
  let p := candidate s c left
  let pivot := s.grid.get p c.castSucc
  let scaled := (s.grid.swapRows p r).scaleRow r (1 / pivot)
  have wide : 0 < n + 1 := Nat.succ_pos n
  have swaps : exchange (DenseMatrix.ofGrid s.grid) p s.placed = _ :=
    exchange_ofGrid s.grid wide p r
  have top : (DenseMatrix.ofGrid (s.grid.swapRows p r)).get s.placed c = .ok pivot :=
    DenseMatrix.get_swapRows_ofGrid s.grid p r c.castSucc
  have scales : (DenseMatrix.ofGrid (s.grid.swapRows p r)).scaleRow s.placed (1 / pivot) =
    .ok (DenseMatrix.ofGrid scaled) := DenseMatrix.scaleRow_ofGrid _ wide r _
  have clears : ((List.range m).filter (· != s.placed)).foldlM
    (clearRow s.placed c fun x => return -x) (DenseMatrix.ofGrid scaled) = _ :=
    clearAround_ofGrid r c scaled
  refine ⟨.tested pivot false :: (exchanged s.grid p r ++
    .divided pivot :: .working (DenseMatrix.ofGrid scaled) ::
      sweep r (fun i => -(scaled.get i c.castSucc)) [] (rowsAround r) scaled), ?_, ?_⟩
  · refine .tested nonzero fun d member => ?_
    simp only [List.mem_append, List.mem_cons] at member
    rcases member with moved | here | same | swept
    · obtain ⟨next, same⟩ := mem_exchanged moved
      cases same
    · exact Event.divided.inj here
    · cases same
    · rcases mem_sweep swept with none | ⟨next, same⟩
      · contradiction
      · cases same
  · rw [reduceFrom_tested left, test, nonzero, done_bind, if_neg Bool.false_ne_true, swaps,
      done_bind, read_bind top, quotient_eq 1 (ne_zero_of_not_isZero nonzero), done_bind,
      change_eq scales, done_bind, clears, done_bind]
    simp only [behind_behind]
    rfl

end Columns

/-- The watched reduction treats the columns as the reduction does. -/
theorem reduceFrom_ofGrid (columns : List (Fin n)) (s : LinearSystem.Reduction α m n) :
    ∃ events, ∃ final : LinearSystem.Reduction α m n,
      reduceFrom (columns.map Fin.val) s.placed (DenseMatrix.ofGrid s.grid) =
        done events (DenseMatrix.ofGrid final.grid) ∧
      LinearSystem.Reduction.run columns s = .ok final ∧ Vouches events := by
  induction columns generalizing s with
  | nil => exact ⟨[], s, rfl, rfl, .nil⟩
  | cons c rest ih =>
    obtain ⟨next, moved, kind⟩ := LinearSystem.Reduction.step_ok s c
    obtain ⟨events, final, reached, plain, vouches⟩ := ih next
    have run : LinearSystem.Reduction.run (c :: rest) s = .ok final :=
      (congrArg (· >>= _) moved).trans plain
    rw [List.map_cons]
    cases kind with
    | exhausted full =>
      rw [reduceFrom_full full] at reached ⊢
      exact ⟨events, final, reached, run, vouches⟩
    | skipped left zero =>
      rw [reduceFrom_skipped left zero, reached]
      exact ⟨_, final, rfl, run, (Vouches.test _ true).append vouches⟩
    | advanced left nonzero =>
      obtain ⟨front, divides, advances⟩ := reduceFrom_advanced left nonzero
      rw [advances, reached]
      exact ⟨_, final, rfl, run, divides.append vouches⟩

end MatrixCalculator.Watched
