import MatrixCalculator.Grid.RowOperation
import MatrixCalculator.Proofs.Scalar.Order
import Mathlib.Order.Fin.Basic

/-! The choice of a pivot. The search keeps the first one of the largest numbers that it has come
to, wherever magnitudes are totally ordered. In exact arithmetic a pivot that counts as zero stands
above and below numbers that all count as zero. -/
namespace MatrixCalculator.Grid

open Scalar (TotallyOrdered)

variable {m n : Nat}

section Search

variable {α ι : Type} [Scalar α] {size : ι → α} {seen rows : List ι} {best r : ι}

/-- The first one of those whose size no other one exceeds. -/
def FirstLargest (size : ι → α) (rows : List ι) (best : ι) : Prop :=
  ∃ before after, rows = before ++ best :: after ∧ (∀ r ∈ before, size r < size best) ∧
    ∀ r ∈ after, ¬size best < size r

theorem FirstLargest.mem (first : FirstLargest size rows best) : best ∈ rows := by
  obtain ⟨before, after, rfl, -, -⟩ := first
  simp

variable {IsNumber : α → Prop} (ordered : TotallyOrdered IsNumber)
include ordered

theorem FirstLargest.not_lt (first : FirstLargest size rows best)
    (numbers : ∀ r ∈ rows, IsNumber (size r)) (member : r ∈ rows) : ¬size best < size r := by
  have number := numbers best first.mem
  have other := numbers r member
  obtain ⟨before, after, rfl, smaller, notLarger⟩ := first
  rcases List.mem_append.mp member with earlier | later
  · exact ordered.asymm other number (smaller r earlier)
  · rcases List.mem_cons.mp later with rfl | later
    · exact ordered.irrefl number
    · exact notLarger r later

/-- A larger one takes the place of the best, and everything in front of it is smaller. -/
theorem FirstLargest.concat (first : FirstLargest size seen best)
    (numbers : ∀ s ∈ seen ++ [r], IsNumber (size s)) :
    FirstLargest size (seen ++ [r]) (if size best < size r then r else best) := by
  have known : ∀ s ∈ seen, IsNumber (size s) :=
    fun s member => numbers s (List.mem_append_left _ member)
  have number := numbers r (List.mem_append_right _ List.mem_cons_self)
  split
  · next larger =>
    refine ⟨seen, [], rfl, fun s member => ?_, by simp⟩
    exact ordered.lt_of_not_lt_of_lt (known s member) (known best first.mem) number
      (first.not_lt ordered known member) larger
  · next notLarger =>
    obtain ⟨before, after, rfl, smaller, rest⟩ := first
    refine ⟨before, after ++ [r], by simp, smaller, fun s member => ?_⟩
    rcases List.mem_append.mp member with inside | last
    · exact rest s inside
    · rw [List.mem_singleton.mp last]
      exact notLarger

theorem FirstLargest.foldl (first : FirstLargest size seen best)
    (numbers : ∀ s ∈ seen ++ rows, IsNumber (size s)) :
    FirstLargest size (seen ++ rows)
      (rows.foldl (fun best r => if size best < size r then r else best) best) := by
  induction rows generalizing seen best with
  | nil => simpa using first
  | cons r rest ih =>
    have parted : seen ++ r :: rest = seen ++ [r] ++ rest := by simp
    rw [parted] at numbers ⊢
    exact ih (first.concat ordered fun s member => numbers s (List.mem_append_left _ member)) numbers

end Search

theorem mem_rowsBelow {start r : Fin m} : r ∈ rowsBelow start ↔ start < r := by
  simp [rowsBelow]

theorem start_le_pivotRow {α : Type} [Scalar α] (g : Grid α m n) (j : Fin n) (start : Fin m) :
    start ≤ g.pivotRow j start := by
  have kept (rows : List (Fin m)) (below : ∀ r ∈ rows, start ≤ r) (best : Fin m)
      (low : start ≤ best) :
      start ≤ rows.foldl (fun best r =>
        if Scalar.magnitude (g.get best j) < Scalar.magnitude (g.get r j) then r else best) best := by
    induction rows generalizing best with
    | nil => exact low
    | cons r rest ih =>
      rw [List.foldl_cons]
      apply ih fun s member => below s (List.mem_cons_of_mem _ member)
      split
      · exact below r List.mem_cons_self
      · exact low
  exact kept (rowsBelow start) (fun r member => (mem_rowsBelow.mp member).le) start (le_refl _)

/-- The choice of a pivot depends on the column at and below its start alone. -/
theorem pivotRow_congr {α : Type} [Scalar α] {p : Nat} {g : Grid α m n} {h : Grid α m p}
    {j : Fin n} {k : Fin p} {start : Fin m} (same : ∀ r, start ≤ r → g.get r j = h.get r k) :
    g.pivotRow j start = h.pivotRow k start := by
  have agree (rows : List (Fin m)) (below : ∀ r ∈ rows, start ≤ r) (best : Fin m)
      (low : start ≤ best) :
      rows.foldl (fun best r =>
        if Scalar.magnitude (g.get best j) < Scalar.magnitude (g.get r j) then r else best) best =
      rows.foldl (fun best r =>
        if Scalar.magnitude (h.get best k) < Scalar.magnitude (h.get r k) then r else best) best := by
    induction rows generalizing best with
    | nil => rfl
    | cons r rest ih =>
      have later := below r List.mem_cons_self
      simp only [List.foldl_cons, same best low, same r later]
      apply ih fun s member => below s (List.mem_cons_of_mem _ member)
      split
      · exact later
      · exact low
  exact agree (rowsBelow start) (fun r member => (mem_rowsBelow.mp member).le) start (le_refl _)

theorem mem_start_rowsBelow {start r : Fin m} : r ∈ start :: rowsBelow start ↔ start ≤ r := by
  rw [List.mem_cons, mem_rowsBelow, le_iff_eq_or_lt, eq_comm]

/-- The search for a pivot comes to all rows from `start` on, and to no others. -/
theorem firstLargest_pivotRow {α : Type} [Scalar α] {IsNumber : α → Prop}
    (ordered : TotallyOrdered IsNumber) {g : Grid α m n} {j : Fin n} {start : Fin m}
    (numbers : ∀ r, start ≤ r → IsNumber (g.get r j)) :
    FirstLargest (fun r => Scalar.magnitude (g.get r j)) (start :: rowsBelow start)
      (g.pivotRow j start) := by
  have alone : FirstLargest (fun r => Scalar.magnitude (g.get r j)) [start] start :=
    ⟨[], [], rfl, by simp, by simp⟩
  exact alone.foldl ordered fun r member =>
    ordered.magnitude (numbers r (mem_start_rowsBelow.mp member))

theorem abs_le_pivotRow (g : Grid ℚ m n) (j : Fin n) {start r : Fin m} (below : start ≤ r) :
    |g.get r j| ≤ |g.get (g.pivotRow j start) j| := by
  have first : FirstLargest (fun r => Scalar.magnitude (g.get r j)) (start :: rowsBelow start)
      (g.pivotRow j start) := firstLargest_pivotRow Scalar.totallyOrdered_rat fun _ _ => trivial
  have largest := first.not_lt Scalar.totallyOrdered_rat (fun _ _ => trivial)
    (mem_start_rowsBelow.mpr below)
  rwa [magnitude_rat, magnitude_rat, not_lt] at largest

theorem eq_zero_of_pivotRow {g : Grid ℚ m n} {j : Fin n} {start r : Fin m}
    (zero : g.get (g.pivotRow j start) j = 0) (below : start ≤ r) : g.get r j = 0 := by
  have bound := abs_le_pivotRow g j below
  rw [zero, abs_zero] at bound
  exact abs_nonpos_iff.mp bound

end MatrixCalculator.Grid
