import MatrixCalculator.Proofs.Checked.Loop
import MatrixCalculator.Proofs.DenseMatrix.OfGrid
import MatrixCalculator.Proofs.Grid.Layout

/-! Matrices in flat storage: two dimensions and a list of cells that nothing ties to them. A
change in place computes offsets from its indices and walks over the list, and what it has
written when it stops stays written. On the cells of a matrix each change does what it does to
the matrix, and one that is refused has written nothing. -/
namespace MatrixCalculator.Flat

open Checked (between)

structure Storage (α : Type) where
  rows : Nat
  cols : Nat
  data : List α

/-- Why an operation stops: no matrix has the name, the matrix or its numbers are refused, or
there is no cell at an offset. -/
inductive Failure
  | unknownName (name : String)
  | stop (cause : Checked.Stop Fault)
  | beyondEnd (offset : Nat)

def Failure.ofFault (fault : Fault) : Failure :=
  .stop (.fault fault)

abbrev InPlace (α : Type) := EStateM Failure (Storage α)

namespace InPlace

variable {α : Type}

def index (i j : Int) : InPlace α Nat := do
  let s ← get
  if (0 ≤ i ∧ i < s.rows) ∧ 0 ≤ j ∧ j < s.cols then return i.toNat * s.cols + j.toNat
  else throw (.ofFault (.indexOutOfRange i j s.rows s.cols))

def load (k : Nat) : InPlace α α := do
  match (← get).data[k]? with
  | some x => return x
  | none => throw (.beyondEnd k)

def store (k : Nat) (x : α) : InPlace α Unit := do
  let s ← get
  if k < s.data.length then set { s with data := s.data.set k x }
  else throw (.beyondEnd k)

def cell (i j : Int) : InPlace α α := do
  load (← index i j)

def setCell (i j : Int) (x : α) : InPlace α Unit := do
  store (← index i j) x

/-- Exchanges two slices. Both are read before one of them is written. -/
def swapRows (i j : Int) : InPlace α Unit :=
  if i = j then return
  else do
    let a ← index i 0
    let b ← index j 0
    let s ← get
    let upper := slice s.data a s.cols
    let lower := slice s.data b s.cols
    set { s with data := splice (splice s.data a lower) b upper }

def scaleRow [Mul α] (i : Int) (factor : α) : InPlace α Unit := do
  let start ← index i 0
  let s ← get
  forM (between start (start + s.cols)) fun k => do
    store k ((← load k) * factor)

def addRow [Add α] [Mul α] (target source : Int) (factor : α) : InPlace α Unit := do
  let t ← index target 0
  let s ← index source 0
  forM (List.range (← get).cols) fun k => do
    store (t + k) ((← load (t + k)) + factor * (← load (s + k)))

end InPlace

namespace Storage

variable {α : Type}

def of (m : DenseMatrix α) : Storage α :=
  ⟨m.rows, m.cols, m.toList⟩

def ofGrid {m n : Nat} (g : Grid α m n) : Storage α :=
  of (DenseMatrix.ofGrid g)

theorem rows_of (m : DenseMatrix α) : (of m).rows = m.rows := by
  rw [of]

theorem cols_of (m : DenseMatrix α) : (of m).cols = m.cols := by
  rw [of]

end Storage

open InPlace

variable {α β γ : Type} {m n : Nat}

def answered (m : DenseMatrix α) : Except Fault β → EStateM.Result Failure (Storage α) β
  | .ok b => .ok b (.of m)
  | .error fault => .error (.ofFault fault) (.of m)

/-- What a change of a matrix does to its storage: a refusal leaves it alone. -/
def responded (m : DenseMatrix α) :
    Except Fault (DenseMatrix α) → EStateM.Result Failure (Storage α) Unit
  | .ok next => .ok () (.of next)
  | .error fault => .error (.ofFault fault) (.of m)

theorem index_of (m : DenseMatrix α) (i j : Int) :
    (index i j).run (.of m) =
      answered m ((m.locate i j).map fun place => place.1.val * m.cols + place.2.val) := by
  simp only [index, DenseMatrix.locate, EStateM.run_bind, EStateM.run_get]
  by_cases inside : (0 ≤ i ∧ i < m.rows) ∧ 0 ≤ j ∧ j < m.cols
  · rw [dif_pos inside]
    exact congrArg (fun x => EStateM.run x (Storage.of m)) (if_pos inside)
  · rw [dif_neg inside]
    exact congrArg (fun x => EStateM.run x (Storage.of m)) (if_neg inside)

theorem load_ofGrid (g : Grid α m n) (i : Fin m) (j : Fin n) :
    (load (i * n + j)).run (.ofGrid g) = .ok (g.get i j) (.ofGrid g) := by
  have shown : (Storage.ofGrid g).data[i * n + j]? = some (g.get i j) := g.getElem?_toList i j
  simp only [load, EStateM.run_bind, EStateM.run_get, shown]
  rfl

theorem store_ofGrid (g : Grid α m n) (i : Fin m) (j : Fin n) (x : α) :
    (store (i * n + j) x).run (.ofGrid g) = .ok () (.ofGrid (g.set i j x)) := by
  have inside : i * n + j < (Storage.ofGrid g).data.length :=
    g.length_toList.symm ▸ Grid.offset_inside i j
  simp only [store, EStateM.run_bind, EStateM.run_get, if_pos inside, EStateM.run_set]
  exact congrArg (fun data => EStateM.Result.ok () (Storage.mk m n data)) (g.toList_set i j x).symm

/-- A loop whose every step gives a new number to a cell. -/
theorem forM_overwrite {ι : Type} {step : ι → InPlace α Unit} {position : ι → Fin m × Fin n}
    {value : Grid α m n → Fin m × Fin n → α}
    (writes : ∀ g k, (step k).run (.ofGrid g) =
      .ok () (.ofGrid (g.set (position k).1 (position k).2 (value g (position k)))))
    (items : List ι) (g : Grid α m n) :
    (forM items step).run (.ofGrid g) =
      .ok () (.ofGrid (g.overwrite value (items.map position))) := by
  induction items generalizing g with
  | nil => rfl
  | cons k rest ih =>
    rw [List.forM_cons, EStateM.run_bind, writes]
    exact ih _

theorem setCell_of (m : DenseMatrix α) (i j : Int) (x : α) :
    (setCell i j x).run (.of m) = responded m (m.set i j x) := by
  rw [setCell, EStateM.run_bind, index_of, DenseMatrix.set]
  cases m.locate i j with
  | error fault => rfl
  | ok place => exact store_ofGrid m.grid place.1 place.2 x

theorem cell_of (m : DenseMatrix α) (i j : Int) :
    (cell i j).run (.of m) = answered m (m.get i j) := by
  rw [cell, EStateM.run_bind, index_of, DenseMatrix.get]
  cases m.locate i j with
  | error fault => rfl
  | ok place => exact load_ofGrid m.grid place.1 place.2

theorem index_row (m : DenseMatrix α) (i : Int) :
    (index i 0).run (.of m) = answered m ((m.locateRow i).map fun r => r.val * m.cols) := by
  rw [index_of, DenseMatrix.locateRow]
  unfold DenseMatrix.locate
  split <;> rfl

theorem eq_of_locateRow {m : DenseMatrix α} {i : Int} {r : Fin m.rows}
    (found : m.locateRow i = .ok r) : i = r.val := by
  unfold DenseMatrix.locateRow DenseMatrix.locate at found
  split at found
  · next inside =>
    cases found
    exact (Int.toNat_of_nonneg inside.1.1).symm
  · cases found

theorem swapRows_of (m : DenseMatrix α) (i j : Int) :
    (swapRows i j).run (.of m) = responded m (m.swapRows i j) := by
  unfold swapRows DenseMatrix.swapRows
  split
  · rfl
  · next apart =>
    rw [EStateM.run_bind, index_row]
    cases first : m.locateRow i with
    | error fault => rfl
    | ok r =>
      simp only [Except.map, answered, EStateM.run_bind, index_row]
      cases second : m.locateRow j with
      | error fault => rfl
      | ok s =>
        -- The second splice must not meet the first one.
        have rows : r ≠ s := by
          rintro rfl
          exact apart ((eq_of_locateRow first).trans (eq_of_locateRow second).symm)
        exact congrArg (fun data => EStateM.Result.ok () (Storage.mk m.rows m.cols data))
          (m.grid.toList_swapRows rows).symm

theorem between_row (i : Fin m) :
    between (i * n) (i * n + n) = (List.finRange n).map fun c => i * n + c.val := by
  rw [between, Nat.add_sub_cancel_left, List.range'_eq_map_range, ← List.map_coe_finRange_eq_range,
    List.map_map]
  rfl

def rowPlaces (i : Fin m) : List (Fin m × Fin n) :=
  (List.finRange n).map fun c => (i, c)

theorem nodup_rowPlaces (i : Fin m) : (rowPlaces i : List (Fin m × Fin n)).Nodup :=
  (List.nodup_finRange n).map fun _ _ same => (Prod.mk.inj same).2

theorem mem_rowPlaces {i r : Fin m} {c : Fin n} : (r, c) ∈ rowPlaces i ↔ r = i := by
  simp [rowPlaces, eq_comm]

theorem overwrite_scaleRow [Mul α] (i : Fin m) (factor : α) (g : Grid α m n) :
    g.overwrite (fun g p => g.get p.1 p.2 * factor) (rowPlaces i) = g.scaleRow i factor := by
  apply Grid.ext
  intro r c
  rw [Grid.get_overwrite (nodup_rowPlaces i), Grid.get_scaleRow]
  · simp only [mem_rowPlaces]
  · intro p _ q _ apart g x
    rw [Grid.get_set, if_neg fun same => apart (Prod.ext same.1 same.2)]

/-- The target may be the source: each cell is read before it is written, and read no more
after. -/
theorem overwrite_addRow [Add α] [Mul α] (target source : Fin m) (factor : α) (g : Grid α m n) :
    g.overwrite (fun g p => g.get p.1 p.2 + factor * g.get source p.2) (rowPlaces target) =
      g.addRow target source factor := by
  apply Grid.ext
  intro r c
  rw [Grid.get_overwrite (nodup_rowPlaces target), Grid.get_addRow]
  · simp only [mem_rowPlaces]
  · rintro ⟨i, j⟩ mine ⟨k, l⟩ yours apart g x
    rw [mem_rowPlaces] at mine yours
    subst mine yours
    have columns : l ≠ j := fun same => apart (by rw [same])
    simp [columns]

theorem scaleRow_of [Mul α] (m : DenseMatrix α) (i : Int) (factor : α) :
    (scaleRow i factor).run (.of m) = responded m (m.scaleRow i factor) := by
  obtain ⟨rows, cols, g⟩ := m
  rw [scaleRow, EStateM.run_bind, index_row, DenseMatrix.scaleRow]
  cases DenseMatrix.locateRow ⟨rows, cols, g⟩ i with
  | error fault => rfl
  | ok r =>
    have loop : (forM (between (r.val * cols) (r.val * cols + cols)) fun k => do
        store k ((← load k) * factor)).run (.ofGrid g) =
          .ok () (.ofGrid (g.scaleRow r factor)) := by
      rw [between_row, List.forM_map, ← overwrite_scaleRow]
      apply forM_overwrite
      intro g c
      simp only [EStateM.run_bind, load_ofGrid, store_ofGrid]
    exact loop

theorem addRow_of [Add α] [Mul α] (m : DenseMatrix α) (target source : Int) (factor : α) :
    (addRow target source factor).run (.of m) = responded m (m.addRow target source factor) := by
  obtain ⟨rows, cols, g⟩ := m
  rw [addRow, EStateM.run_bind, index_row, DenseMatrix.addRow]
  cases DenseMatrix.locateRow ⟨rows, cols, g⟩ target with
  | error fault => rfl
  | ok t =>
    simp only [Except.map, answered, EStateM.run_bind, index_row]
    cases DenseMatrix.locateRow ⟨rows, cols, g⟩ source with
    | error fault => rfl
    | ok s =>
      have loop : (forM (List.range cols) fun k => do
          store (t * cols + k) ((← load (t * cols + k)) + factor * (← load (s * cols + k)))).run
            (.ofGrid g) = .ok () (.ofGrid (g.addRow t s factor)) := by
        rw [← List.map_coe_finRange_eq_range, List.forM_map, ← overwrite_addRow]
        apply forM_overwrite
        intro g c
        simp only [EStateM.run_bind, load_ofGrid, store_ofGrid]
      exact loop

end MatrixCalculator.Flat
