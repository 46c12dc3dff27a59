import MatrixCalculator.Proofs.Checked.Arithmetic
import MatrixCalculator.Proofs.Checked.Loop
import MatrixCalculator.Proofs.DenseMatrix.RowOperation

/-! Checked row operations. The loops over the rows of a matrix read and write through checked
indices; on a matrix made of a grid they find every index inside and do what the operations on
whole grids do. -/
namespace MatrixCalculator.Checked

def larger (m : DenseMatrix Float) (col : Nat) (best : Nat × Float) (r : Nat) :
    Except Fault (Nat × Float) := do
  let candidate := Scalar.magnitude (← m.get r col)
  return if best.2 < candidate then (r, candidate) else best

def pivotRow (m : DenseMatrix Float) (col start : Nat) : Except Fault Nat := do
  let first ← m.get start col
  let best ← (between (start + 1) m.rows).foldlM (larger m col) (start, Scalar.magnitude first)
  return best.1

def clearRow (source col : Nat) (factor : Float → Except Fault Float) (m : DenseMatrix Float)
    (i : Nat) : Except Fault (DenseMatrix Float) := do
  let f ← factor (← m.get i col)
  m.addRow i source f

/-- Two matrices that undergo the same row operations. -/
structure Pair where
  work : DenseMatrix Float
  record : DenseMatrix Float

def Pair.ofTandem {n : Nat} (t : Grid.Tandem Float n) : Pair :=
  ⟨DenseMatrix.ofGrid t.work, DenseMatrix.ofGrid t.record⟩

def Pair.clearRow (source col : Nat) (factor : Float → Except Fault Float) (p : Pair) (i : Nat) :
    Except Fault Pair := do
  let f ← factor (← p.work.get i col)
  return ⟨← p.work.addRow i source f, ← p.record.addRow i source f⟩

variable {m n : Nat}

theorem pivotRow_ofGrid (g : Grid Float m n) (j : Fin n) (start : Fin m) :
    pivotRow (DenseMatrix.ofGrid g) j start = .ok (g.pivotRow j start).val :=
  DenseMatrix.searchPivot_ofGrid g j start

def factors (rows : List Nat) (col : Fin n) (factor : Float → Float) (g : Grid Float m n)
    (r : Fin m) : Option Float :=
  if r.val ∈ rows then some (factor (g.get r col)) else none

theorem factors_cons (source : Fin m) {i : Fin m} {rest : List Nat} (fresh : i.val ∉ rest)
    (col : Fin n) (factor : Float → Float) (f : Float) (g : Grid Float m n) :
    factors (i.val :: rest) col factor g i = some (factor (g.get i col)) ∧
      factors rest col factor (g.addRow i source f) i = none ∧
      ∀ r, r ≠ i → factors rest col factor (g.addRow i source f) r =
        factors (i.val :: rest) col factor g r := by
  refine ⟨by simp [factors], by simp [factors, fresh], fun r apart => ?_⟩
  have other : r.val ≠ i.val := fun same => apart (Fin.ext same)
  simp [factors, Grid.get_addRow, apart, other]

theorem factors_nil (source : Fin m) (col : Fin n) (factor : Float → Float) (g : Grid Float m n)
    {p : Nat} (h : Grid Float m p) : h.addMultiples source (factors [] col factor g) = h := by
  apply Grid.ext
  intro r c
  simp [factors]

variable {source : Fin m} {rows : List Nat} {factor : Float → Except Fault Float}
  {plain : Float → Float}

theorem clearRow_ofGrid (computes : ∀ x, factor x = .ok (plain x)) (col : Fin n) (i : Fin m)
    (g : Grid Float m n) : clearRow source col factor (DenseMatrix.ofGrid g) i =
      .ok (DenseMatrix.ofGrid (g.addRow i source (plain (g.get i col)))) := by
  rw [clearRow, DenseMatrix.get_ofGrid, ok_bind, computes, ok_bind,
    DenseMatrix.addRow_ofGrid g (Fin.pos col)]

theorem clearRows_ofGrid (computes : ∀ x, factor x = .ok (plain x)) (col : Fin n)
    (inside : ∀ i ∈ rows, i < m) (nodup : rows.Nodup) (apart : source.val ∉ rows)
    (g : Grid Float m n) :
    rows.foldlM (clearRow source col factor) (DenseMatrix.ofGrid g) =
      .ok (DenseMatrix.ofGrid (g.addMultiples source (factors rows col plain g))) := by
  induction rows generalizing g with
  | nil =>
    rw [factors_nil]
    rfl
  | cons k rest ih =>
    obtain ⟨i, rfl⟩ : ∃ i : Fin m, i.val = k := ⟨⟨k, inside k List.mem_cons_self⟩, rfl⟩
    rw [List.nodup_cons] at nodup
    rw [List.mem_cons, not_or] at apart
    have different : i ≠ source := fun same => apart.1 (congrArg Fin.val same.symm)
    -- A row is written once only, so the factors that the loop reads later are still those of `g`.
    obtain ⟨here, fresh, elsewhere⟩ :=
      factors_cons source nodup.1 col plain (plain (g.get i col)) g
    rw [List.foldlM_cons, clearRow_ofGrid computes, ok_bind,
      ih (fun j member => inside j (List.mem_cons_of_mem _ member)) nodup.2 apart.2,
      DenseMatrix.addRow_addMultiples different here fresh elsewhere]

theorem Pair.clearRow_ofTandem {source i col : Fin n} (computes : ∀ x, factor x = .ok (plain x))
    (t : Grid.Tandem Float n) : Pair.clearRow source col factor (.ofTandem t) i =
      .ok (.ofTandem ⟨t.work.addRow i source (plain (t.work.get i col)),
        t.record.addRow i source (plain (t.work.get i col))⟩) := by
  rw [Pair.clearRow]
  simp only [Pair.ofTandem, DenseMatrix.get_ofGrid, ok_bind, computes]
  rw [DenseMatrix.addRow_ofGrid _ (Fin.pos col), DenseMatrix.addRow_ofGrid _ (Fin.pos col)]
  rfl

theorem Pair.clearRows_ofTandem {source col : Fin n} (computes : ∀ x, factor x = .ok (plain x))
    (inside : ∀ i ∈ rows, i < n) (nodup : rows.Nodup) (apart : source.val ∉ rows)
    (t : Grid.Tandem Float n) :
    rows.foldlM (Pair.clearRow source col factor) (.ofTandem t) =
      .ok (.ofTandem (t.addMultiples source (factors rows col plain t.work))) := by
  induction rows generalizing t with
  | nil =>
    simp only [Grid.Tandem.addMultiples, factors_nil]
    rfl
  | cons k rest ih =>
    obtain ⟨i, rfl⟩ : ∃ i : Fin n, i.val = k := ⟨⟨k, inside k List.mem_cons_self⟩, rfl⟩
    rw [List.nodup_cons] at nodup
    rw [List.mem_cons, not_or] at apart
    have different : i ≠ source := fun same => apart.1 (congrArg Fin.val same.symm)
    obtain ⟨here, fresh, elsewhere⟩ :=
      factors_cons source nodup.1 col plain (plain (t.work.get i col)) t.work
    rw [List.foldlM_cons, Pair.clearRow_ofTandem computes, ok_bind,
      ih (fun j member => inside j (List.mem_cons_of_mem _ member)) nodup.2 apart.2]
    simp only [Grid.Tandem.addMultiples, DenseMatrix.addRow_addMultiples different here fresh elsewhere]

end MatrixCalculator.Checked
