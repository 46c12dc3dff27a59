import MatrixCalculator.Proofs.Checked.Loop
import MatrixCalculator.Proofs.DenseMatrix.OfGrid

/-! Row operations as loops over checked indices: the search for a pivot, and the multiples of one
row that are added to others one after the other. -/
namespace MatrixCalculator.DenseMatrix

open Checked (between map_val_rowsBelow ok_bind foldlM_eq_ok)

variable {α : Type} {m n p : Nat}

section Search

variable [Scalar α]

def larger (m : DenseMatrix α) (col : Nat) (best : Nat × α) (r : Nat) : Except Fault (Nat × α) := do
  let candidate := Scalar.magnitude (← m.get r col)
  return if best.2 < candidate then (r, candidate) else best

def searchPivot (m : DenseMatrix α) (col start : Nat) : Except Fault Nat := do
  let first ← m.get start col
  let best ← (between (start + 1) m.rows).foldlM (larger m col) (start, Scalar.magnitude first)
  return best.1

theorem searchPivot_ofGrid (g : Grid α m n) (j : Fin n) (start : Fin m) :
    searchPivot (ofGrid g) j start = .ok (g.pivotRow j start).val := by
  let seen (best : Fin m) : Nat × α := (best.val, Scalar.magnitude (g.get best j))
  have step (best r : Fin m) : larger (ofGrid g) j (seen best) r =
      .ok (seen (if Scalar.magnitude (g.get best j) < Scalar.magnitude (g.get r j) then r
        else best)) := by
    rw [larger, get_ofGrid, ok_bind]
    dsimp only [seen]
    split <;> rfl
  have search : (Grid.rowsBelow start).foldlM
      (fun best (r : Fin m) => larger (ofGrid g) j best r) (seen start) =
        .ok (seen (g.pivotRow j start)) :=
    foldlM_eq_ok seen _ (fun best r _ => step best r) start
  have rows : between (start + 1) (ofGrid g).rows = _ := (map_val_rowsBelow start).symm
  rw [searchPivot, get_ofGrid, ok_bind, rows, List.foldlM_map]
  exact congrArg (· >>= _) search

end Search

variable [Add α] [Mul α] {source : Fin m} {f : Fin m → α} {rows : List (Fin m)}

def addRows (source : Fin m) (f : Fin m → α) (rows : List (Fin m)) (g : Grid α m n) :
    Grid α m n :=
  rows.foldl (fun g i => g.addRow i source (f i)) g

theorem addRow_addMultiples {i : Fin m} (apart : i ≠ source) {first all : Fin m → Option α} {f : α}
    (here : all i = some f) (fresh : first i = none) (elsewhere : ∀ r, r ≠ i → first r = all r)
    (g : Grid α m p) :
    (g.addRow i source f).addMultiples source first = g.addMultiples source all := by
  apply Grid.ext
  intro r c
  by_cases same : r = i
  · subst same
    simp [Grid.get_addRow, here, fresh]
  · simp [Grid.get_addRow, same, apart.symm, elsewhere r same]

/-- The row `source` is not written, so it makes no difference that the rows are written one after
the other. -/
theorem addRows_eq (nodup : rows.Nodup) (apart : source ∉ rows) (g : Grid α m n) :
    addRows source f rows g =
      g.addMultiples source fun r => if r ∈ rows then some (f r) else none := by
  induction rows generalizing g with
  | nil =>
    apply Grid.ext
    intro r c
    simp [addRows]
  | cons i rest ih =>
    obtain ⟨fresh, nodup⟩ := List.nodup_cons.mp nodup
    obtain ⟨different, apart⟩ := not_or.mp (mt List.mem_cons.mpr apart)
    refine (ih nodup apart _).trans ?_
    refine addRow_addMultiples (Ne.symm different) (if_pos List.mem_cons_self) (if_neg fresh)
      (fun r other => ?_) g
    simp [other]

end MatrixCalculator.DenseMatrix
