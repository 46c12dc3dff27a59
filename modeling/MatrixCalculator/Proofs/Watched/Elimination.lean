import MatrixCalculator.Proofs.Grid.Inverse
import MatrixCalculator.Proofs.Watched.RowOperation

/-! Watched elimination. The determinant tests every pivot before it divides by it. The inverse
tests the determinant only, and then goes through the same columns on its own. -/
namespace MatrixCalculator.Watched

open Checked (between map_val_rowsBelow)
open DenseMatrix (addRows addRows_eq searchPivot searchPivot_ofGrid)

section Programs

variable {α : Type} [Scalar α]

def quotientBy (pivot x : α) : Run α α := do
  return -(← quotient x pivot)

def determinantFrom (n : Nat) : List Nat → DenseMatrix α → α → Run α α
  | [], _, product => return product
  | k :: rest, work, product => do
    let p ← searchPivot work k k
    if ← test (← work.get p k) then return 0
    else
      let swapped ← exchange work p k
      let pivot ← swapped.get k k
      mark (.pivot pivot)
      let below ← (between (k + 1) n).foldlM (clearRow k k (quotientBy pivot)) swapped
      determinantFrom n rest below ((if p = k then product else -product) * pivot)

def determinant (m : DenseMatrix α) : Run α α :=
  if m.cols = m.rows then determinantFrom m.rows (List.range m.rows) m 1
  else fail (.notSquare .determinant)

/-- A working matrix, and one that records its row operations. -/
structure Pair (α : Type) where
  work : DenseMatrix α
  record : DenseMatrix α

namespace Pair

def exchange (p : Pair α) (i j : Nat) : Run α (Pair α) :=
  if i = j then return p
  else do
    return ⟨← change (p.work.swapRows i j), ← p.record.swapRows i j⟩

def clearRow (source col : Nat) (factor : α → Run α α) (p : Pair α) (i : Nat) :
    Run α (Pair α) := do
  let f ← factor (← p.work.get i col)
  return ⟨← change (p.work.addRow i source f), ← p.record.addRow i source f⟩

def clearBelow (n : Nat) (p : Pair α) (k : Nat) : Run α (Pair α) := do
  let best ← searchPivot p.work k k
  let swapped ← p.exchange best k
  let pivot ← swapped.work.get k k
  mark (.pivot pivot)
  (between (k + 1) n).foldlM (clearRow k k (quotientBy pivot)) swapped

def normalize (p : Pair α) (k : Nat) : Run α (Pair α) := do
  let factor ← quotient 1 (← p.work.get k k)
  return ⟨← change (p.work.scaleRow k factor), ← p.record.scaleRow k factor⟩

def clearAbove (p : Pair α) (k : Nat) : Run α (Pair α) :=
  (List.range k).reverse.foldlM (clearRow k k fun x => return -x) p

def triangularize (n : Nat) (p : Pair α) : Run α (Pair α) :=
  (List.range n).foldlM (clearBelow n) p

def backSubstitute (n : Nat) (p : Pair α) : Run α (Pair α) := do
  let normalized ← (List.range n).foldlM normalize p
  (List.range n).reverse.foldlM clearAbove normalized

end Pair

def inverse (m : DenseMatrix α) : Run α (DenseMatrix α) :=
  if m.cols = m.rows then do
    if ← test (← determinant m) then fail .singular
    else
      let triangular ← Pair.triangularize m.rows ⟨m, ← DenseMatrix.identity m.rows⟩
      let reduced ← Pair.backSubstitute m.rows triangular
      return reduced.record
  else fail (.notSquare .inverse)

end Programs

variable {α : Type} [Scalar α] {n : Nat}

theorem quotientBy_eq {pivot : α} (nonzero : (pivot == 0) = false) (x : α) :
    quotientBy pivot x = done [.divided pivot] (-(x / pivot)) := by
  rw [quotientBy, quotient_eq x nonzero]
  rfl

def columnEvents (k : Fin n) (g : Grid α n n) : List (Event α) :=
  let pivot := g.get (g.pivotRow k k) k
  let swapped := g.swapRows (g.pivotRow k k) k
  exchanged g (g.pivotRow k k) k ++ [.pivot pivot] ++
    sweep k (fun i => -(swapped.get i k / pivot)) [.divided pivot] (Grid.rowsBelow k) swapped

theorem mem_columnEvents {k : Fin n} {g : Grid α n n} {event : Event α}
    (member : event ∈ columnEvents k g) :
    event.isTest = false ∧ ∀ d, event = .divided d → d = g.get (g.pivotRow k k) k := by
  rcases List.mem_append.mp member with first | swept
  · rcases List.mem_append.mp first with moved | found
    · obtain ⟨next, rfl⟩ := mem_exchanged moved
      exact ⟨rfl, fun d same => by contradiction⟩
    · cases List.mem_singleton.mp found
      exact ⟨rfl, fun d same => by contradiction⟩
  · rcases mem_sweep swept with divides | ⟨next, rfl⟩
    · cases List.mem_singleton.mp divides
      exact ⟨rfl, fun d same => (Event.divided.inj same).symm⟩
    · exact ⟨rfl, fun d same => by contradiction⟩

theorem nodup_rowsBelow (k : Fin n) : (Grid.rowsBelow k).Nodup :=
  (List.nodup_finRange n).filter _

theorem addRows_below (k : Fin n) (pivot : α) (g : Grid α n n) {p : Nat} (h : Grid α n p) :
    addRows k (fun i => -(g.get i k / pivot)) (Grid.rowsBelow k) h =
      h.addMultiples k (Grid.factorsBelow k pivot g) := by
  rw [addRows_eq (nodup_rowsBelow k) (by simp [Grid.mem_rowsBelow])]
  congr 1
  funext i
  simp [Grid.factorsBelow, Grid.mem_rowsBelow]

theorem clearBelow_ofGrid {pivot : α} (nonzero : (pivot == 0) = false) (k : Fin n)
    (g : Grid α n n) :
    (between (k + 1) n).foldlM (clearRow k k (quotientBy pivot)) (DenseMatrix.ofGrid g) =
      done (sweep k (fun i => -(g.get i k / pivot)) [.divided pivot] (Grid.rowsBelow k) g)
        (DenseMatrix.ofGrid (g.addMultiples k (Grid.factorsBelow k pivot g))) := by
  rw [← map_val_rowsBelow, clearRows_ofGrid (quotientBy_eq nonzero) k g (nodup_rowsBelow k)
    fun _ _ => rfl, addRows_below]

/-- The determinant tests a column, and goes through it if it has a pivot. -/
theorem determinantFrom_cons {k : Fin n} {g : Grid α n n}
    (nonzero : isZero (g.get (g.pivotRow k k) k) = false) (rest : List Nat) (product : α) :
    determinantFrom n (k :: rest) (DenseMatrix.ofGrid g) product =
      (determinantFrom n rest (DenseMatrix.ofGrid (g.cleared k))
        ((if g.pivotRow k k = k then product else -product) * g.get (g.pivotRow k k) k)).behind
        (.tested (g.get (g.pivotRow k k) k) false :: columnEvents k g) := by
  rw [determinantFrom, read_bind (searchPivot_ofGrid g k k),
    read_bind (DenseMatrix.get_ofGrid g _ k), test, nonzero, done_bind, if_neg Bool.false_ne_true,
    exchange_ofGrid g (Fin.pos k), done_bind, read_bind (DenseMatrix.get_swapRows_ofGrid g _ k k),
    clearBelow_ofGrid (ne_zero_of_not_isZero nonzero), done_bind,
    mark_bind, behind_behind, behind_behind, behind_behind]
  simp only [Fin.val_inj]
  rfl

theorem determinantFrom_stops {k : Fin n} {g : Grid α n n}
    (zero : isZero (g.get (g.pivotRow k k) k) = true) (rest : List Nat) (product : α) :
    determinantFrom n (k :: rest) (DenseMatrix.ofGrid g) product =
      done [.tested (g.get (g.pivotRow k k) k) true] 0 := by
  rw [determinantFrom, read_bind (searchPivot_ofGrid g k k),
    read_bind (DenseMatrix.get_ofGrid g _ k), test, zero, done_bind, if_pos rfl]
  rfl

def forwardEvents : List (Fin n) → Grid α n n → List (Event α)
  | [], _ => []
  | k :: rest, g => columnEvents k g ++ forwardEvents rest (g.cleared k)

/-- Whether the pivots of the columns, one cleared after the other, have a property. -/
def AllPivots (P : α → Prop) : List (Fin n) → Grid α n n → Prop
  | [], _ => True
  | k :: rest, g => P (g.get (g.pivotRow k k) k) ∧ AllPivots P rest (g.cleared k)

theorem AllPivots.mono {P Q : α → Prop} (weaker : ∀ x, P x → Q x) {columns : List (Fin n)}
    {g : Grid α n n} (pivots : AllPivots P columns g) : AllPivots Q columns g := by
  induction columns generalizing g with
  | nil => trivial
  | cons k rest ih => exact ⟨weaker _ pivots.1, ih pivots.2⟩

/-- What a run of the determinant shows: it divides by numbers only that it has tested before,
and if it finds all pivots, it shows but for its tests what clearing the columns shows. -/
structure Tested (columns : List (Fin n)) (g : Grid α n n) (events : List (Event α)) (size : α) :
    Prop where
  divides : Vouches events
  ends : size = 0 ∨ AllPivots (Vouched events) columns g ∧
    events.filter (!·.isTest) = forwardEvents columns g

theorem filter_columnEvents (k : Fin n) (g : Grid α n n) :
    (columnEvents k g).filter (!·.isTest) = columnEvents k g :=
  List.filter_eq_self.mpr fun _ member => by rw [(mem_columnEvents member).1]; rfl

/-- A column with a pivot in front of the others. -/
theorem Tested.cons {k : Fin n} {rest : List (Fin n)} {g : Grid α n n} {events : List (Event α)}
    {size : α} (nonzero : isZero (g.get (g.pivotRow k k) k) = false)
    (later : Tested rest (g.cleared k) events size) :
    Tested (k :: rest) g
      (.tested (g.get (g.pivotRow k k) k) false :: columnEvents k g ++ events) size := by
  have here : Vouched (.tested (g.get (g.pivotRow k k) k) false :: columnEvents k g ++ events)
      (g.get (g.pivotRow k k) k) := ⟨nonzero, List.mem_cons_self⟩
  have first : Vouches (.tested (g.get (g.pivotRow k k) k) false :: columnEvents k g) :=
    .tested nonzero fun d member => (mem_columnEvents member).2 d rfl
  refine ⟨first.append later.divides, later.ends.imp_right fun ⟨pivots, shown⟩ => ⟨⟨here, ?_⟩, ?_⟩⟩
  · exact pivots.mono fun x vouched => vouched.mono (List.subset_append_right _ _)
  · rw [List.filter_append, List.filter_cons_of_neg (by simp [Event.isTest]), filter_columnEvents,
      shown]
    rfl

theorem determinantFrom_ofGrid (columns : List (Fin n)) (g : Grid α n n) (product : α) :
    ∃ events size,
      determinantFrom n (columns.map Fin.val) (DenseMatrix.ofGrid g) product = done events size ∧
      (Grid.eliminateFrom columns g product).map (·.determinant) = .ok size ∧
      Tested columns g events size := by
  induction columns generalizing g product with
  | nil => exact ⟨[], product, rfl, rfl, .nil, .inr ⟨trivial, rfl⟩⟩
  | cons k rest ih =>
    cases small : isZero (g.get (g.pivotRow k k) k) with
    | true =>
      refine ⟨_, 0, determinantFrom_stops small _ _, ?_, .test _ _, .inl rfl⟩
      simp only [Grid.eliminateFrom, small]
      rfl
    | false =>
      obtain ⟨events, size, reached, plain, tested⟩ := ih (g.cleared k)
        ((if g.pivotRow k k = k then product else -product) * g.get (g.pivotRow k k) k)
      refine ⟨_, size, ?_, ?_, tested.cons small⟩
      · rw [List.map_cons, determinantFrom_cons small, reached, behind_done]
      · rw [Grid.eliminateFrom_cons small, plain]

theorem determinant_ofGrid (g : Grid α n n) :
    ∃ events size, determinant (DenseMatrix.ofGrid g) = done events size ∧
      g.determinant.outcome = .ok size ∧ Tested (List.finRange n) g events size := by
  obtain ⟨events, size, reached, plain, tested⟩ := determinantFrom_ofGrid (List.finRange n) g 1
  refine ⟨events, size, ?_, (Grid.determinant_outcome g).trans plain, tested⟩
  rw [← reached, List.map_coe_finRange_eq_range]
  exact if_pos rfl

end MatrixCalculator.Watched
