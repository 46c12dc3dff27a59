import MatrixCalculator.Proofs.LinearSystem.Rank
import MatrixCalculator.Proofs.Watched.Reduction

/-! The reduction of an augmented matrix as a loop that changes the matrix in place. It walks down
the rows and along the columns, reads and writes through checked indices and stops when it runs out
of either. In exact arithmetic no iteration fails, whatever the numbers are, and the loop ends in
what the reduction by columns results in. -/
namespace MatrixCalculator.LinearSystem

open Checked (ok_bind)
open DenseMatrix (addRows ofGrid searchPivot)
open Reduction (Echelon candidate factorsAround get_candidate pivoted searchPivot_candidate)
open Watched (addRows_around map_val_rowsAround nodup_rowsAround)

variable {α : Type} {m n : Nat}

/-- Where a walk stands: the next pivot is looked for in column `col` from `row` on, and pivots
have been placed in the columns `pivots`, one in each row from the top. -/
structure Walk (α : Type) where
  matrix : DenseMatrix α
  row : Nat
  col : Nat
  pivots : List Nat

namespace Walk

def along (augmented : DenseMatrix α) : Walk α :=
  ⟨augmented, 0, 0, []⟩

def Ongoing (unknowns : Nat) (w : Walk α) : Prop :=
  w.row < w.matrix.rows ∧ w.col < unknowns

instance (unknowns : Nat) (w : Walk α) : Decidable (w.Ongoing unknowns) :=
  inferInstanceAs (Decidable (_ ∧ _))

def before (k : Nat) (s : Reduction α m n) (pivots : List (Fin n)) : Walk α :=
  ⟨ofGrid s.grid, s.placed, k, pivots.map Fin.val⟩

variable [Scalar α]

def clearRow (source col : Nat) (m : DenseMatrix α) (i : Nat) : Except Fault (DenseMatrix α) := do
  m.addRow i source (-(← m.get i col))

/-- One iteration. A column whose best number counts as zero is passed over. -/
def advance (w : Walk α) : Except Fault (Walk α) := do
  let p ← searchPivot w.matrix w.col w.row
  if isZero (← w.matrix.get p w.col) then return { w with col := w.col + 1 }
  else
    let swapped ← w.matrix.swapRows p w.row
    let pivot ← Grid.divisor (← swapped.get w.row w.col)
    let scaled ← swapped.scaleRow w.row (1 / pivot)
    let cleared ← (List.range w.matrix.rows).foldlM
      (fun m i => if i != w.row then clearRow w.row w.col m i else return m) scaled
    return ⟨cleared, w.row + 1, w.col + 1, w.pivots ++ [w.col]⟩

inductive Iterates (unknowns : Nat) (first : Walk α) : Nat → Walk α → Prop
  | start : Iterates unknowns first 0 first
  | next {k : Nat} {w later : Walk α} (arrived : Iterates unknowns first k w)
      (ongoing : w.Ongoing unknowns) (moved : w.advance = .ok later) :
      Iterates unknowns first (k + 1) later

/-- No row is written before its factor is read, so the factors are those of the grid as it was. -/
theorem clearRows_ofGrid (source : Fin m) (col : Fin n) {rows : List (Fin m)} {f : Fin m → α}
    {g : Grid α m n} (nodup : rows.Nodup) (reads : ∀ i ∈ rows, -(g.get i col) = f i) :
    (rows.map Fin.val).foldlM (clearRow source col) (ofGrid g) =
      .ok (ofGrid (addRows source f rows g)) := by
  induction rows generalizing g with
  | nil => rfl
  | cons i rest ih =>
    obtain ⟨fresh, nodup⟩ := List.nodup_cons.mp nodup
    obtain ⟨here, others⟩ := List.forall_mem_cons.mp reads
    have moved : clearRow source col (ofGrid g) i = .ok (ofGrid (g.addRow i source (f i))) := by
      rw [clearRow, DenseMatrix.get_ofGrid, ok_bind, here]
      exact DenseMatrix.addRow_ofGrid g (Fin.pos col) i source (f i)
    rw [List.map_cons, List.foldlM_cons, moved, ok_bind, ih nodup fun j member => ?_]
    · rfl
    · have apart : j ≠ i := fun same => fresh (same ▸ member)
      rw [Grid.get_addRow, if_neg apart]
      exact others j member

theorem clearAround_ofGrid (r : Fin m) (c : Fin n) (g : Grid α m (n + 1)) :
    (List.range m).foldlM
        (fun m i => if i != r.val then clearRow r c m i else return m) (ofGrid g) =
      .ok (ofGrid (g.addMultiples r (factorsAround r c g))) := by
  rw [← List.foldlM_filter, ← map_val_rowsAround, ← addRows_around]
  exact clearRows_ofGrid r c.castSucc (nodup_rowsAround r) fun _ _ => rfl

section Iteration

variable {s : Reduction α m n} {c : Fin n} {pivots : List (Fin n)}

theorem advance_skipped (left : s.placed < m)
    (zero : isZero (s.grid.get (candidate s c left) c.castSucc) = true) :
    (before c s pivots).advance = .ok (before (c + 1) s pivots) := by
  rw [advance]
  dsimp only [before]
  rw [searchPivot_candidate s c left, ok_bind, get_candidate, ok_bind, if_pos zero]
  rfl

theorem advance_placed (left : s.placed < m)
    (nonzero : isZero (s.grid.get (candidate s c left) c.castSucc) = false) :
    (before c s pivots).advance =
      .ok (before (c + 1) ⟨pivoted ⟨s.placed, left⟩ (candidate s c left) c s.grid, s.placed + 1⟩
        (pivots ++ [c])) := by
  let r : Fin m := ⟨s.placed, left⟩
  let p := candidate s c left
  let pivot := s.grid.get p c.castSucc
  have wide : 0 < n + 1 := Nat.succ_pos n
  have swapped : (ofGrid s.grid).swapRows p s.placed = .ok (ofGrid (s.grid.swapRows p r)) :=
    DenseMatrix.swapRows_ofGrid s.grid wide p r
  have top : (ofGrid (s.grid.swapRows p r)).get s.placed c = .ok pivot :=
    DenseMatrix.get_swapRows_ofGrid s.grid p r c.castSucc
  have divides := Grid.divisor_of_nonzero (ne_zero_of_not_isZero nonzero)
  have scaled : (ofGrid (s.grid.swapRows p r)).scaleRow s.placed (1 / pivot) =
    .ok (ofGrid ((s.grid.swapRows p r).scaleRow r (1 / pivot))) :=
    DenseMatrix.scaleRow_ofGrid _ wide r _
  have cleared := clearAround_ofGrid r c ((s.grid.swapRows p r).scaleRow r (1 / pivot))
  have kept : isZero pivot ≠ true := Bool.eq_false_iff.mp nonzero
  rw [advance]
  dsimp only [before]
  rw [searchPivot_candidate s c left, ok_bind, get_candidate, ok_bind, if_neg kept, swapped, ok_bind,
    top, ok_bind, divides, ok_bind, scaled, ok_bind]
  refine (congrArg (· >>= _) cleared).trans ?_
  rw [List.map_append]
  rfl

end Iteration

theorem run_of_full {s : Reduction α m n} (full : m ≤ s.placed) (columns : List (Fin n)) :
    Reduction.run columns s = .ok s := by
  induction columns with
  | nil => rfl
  | cons c rest ih =>
    rw [Reduction.run, List.foldlM_cons, Reduction.step, dif_neg (Nat.not_lt.mpr full), ok_bind]
    exact ih

/-- A walk goes on to the end of the columns or of the rows, and treats the columns ahead of it as
the reduction does. -/
theorem Iterates.ends {first : Walk α} {k : Nat} (bound : k ≤ n) {s : Reduction α m n}
    {pivots : List (Fin n)} (arrived : Iterates n first k (before k s pivots)) :
    ∃ last ≤ n, ∃ final : Reduction α m n, ∃ placed : List (Fin n),
      Iterates n first last (before last final placed) ∧ ¬(before last final placed).Ongoing n ∧
      Reduction.run ((List.finRange n).drop k) s = .ok final := by
  induction bound using Nat.decreasingInduction generalizing s pivots with
  | self =>
    refine ⟨n, Nat.le_refl n, s, pivots, arrived, fun ongoing => Nat.lt_irrefl _ ongoing.2, ?_⟩
    rw [List.drop_of_length_le (by simp)]
    rfl
  | of_succ k bound ih =>
    by_cases left : s.placed < m
    · let c : Fin n := ⟨k, bound⟩
      obtain ⟨next, treated, kind⟩ := Reduction.step_ok s c
      have moved : ∃ later, (before c s pivots).advance = .ok (before (c + 1) next later) := by
        cases kind with
        | exhausted full => exact absurd left (Nat.not_lt.mpr full)
        | skipped left zero => exact ⟨_, advance_skipped left zero⟩
        | advanced left nonzero => exact ⟨_, advance_placed left nonzero⟩
      obtain ⟨later, moved⟩ := moved
      obtain ⟨last, inside, final, placed, reached, stopped, rest⟩ :=
        ih (.next arrived ⟨left, bound⟩ moved)
      refine ⟨last, inside, final, placed, reached, stopped, ?_⟩
      rw [List.drop_eq_getElem_cons (by simpa using bound), List.getElem_finRange, Reduction.run,
        List.foldlM_cons]
      exact (congrArg (· >>= _) treated).trans rest
    · exact ⟨k, Nat.le_of_lt bound, s, pivots, arrived, fun ongoing => left ongoing.1,
        run_of_full (Nat.le_of_not_lt left) _⟩

section Exact

variable {initial : Grid ℚ m (n + 1)}

/-- An iteration succeeds, and all that holds of the pivots before it holds after it. -/
theorem advance_echelon {s : Reduction ℚ m n} {c : Fin n} {pivots : List (Fin n)}
    (echelon : Echelon initial c s pivots) (left : s.placed < m) :
    ∃ next later, (before c s pivots).advance = .ok (before (c + 1) next later) ∧
      Echelon initial (c + 1) next later := by
  cases zero : isZero (s.grid.get (candidate s c left) c.castSucc) with
  | true => exact ⟨s, pivots, advance_skipped left zero, echelon.mono⟩
  | false => exact ⟨_, _, advance_placed left zero, echelon.advance left zero⟩

theorem Iterates.echelon {k : Nat} {w : Walk ℚ}
    (arrived : Iterates n (along (ofGrid initial)) k w) :
    k ≤ n ∧ ∃ s pivots, w = before k s pivots ∧ Echelon initial k s pivots := by
  induction arrived with
  | start => exact ⟨Nat.zero_le n, ⟨initial, 0⟩, [], rfl, .start initial⟩
  | @next k w later arrived ongoing moved ih =>
    obtain ⟨-, s, pivots, rfl, echelon⟩ := ih
    obtain ⟨left, inside⟩ := ongoing
    obtain ⟨next, placed, advanced, echelon⟩ := advance_echelon (c := ⟨k, inside⟩) echelon left
    cases Except.ok.inj (moved.symm.trans advanced)
    exact ⟨inside, next, placed, rfl, echelon⟩

end Exact

structure Reduces (initial : Grid ℚ m (n + 1)) : Prop where
  /-- The loop stops by itself, in the reduced matrix. -/
  ends : ∃ k ≤ n, ∃ w s, Iterates n (along (ofGrid initial)) k w ∧ ¬w.Ongoing n ∧
    Reduction.run (List.finRange n) ⟨initial, 0⟩ = .ok s ∧ w.matrix = ofGrid s.grid ∧
    w.row = s.placed
  bounded : ∀ {k w}, Iterates n (along (ofGrid initial)) k w → k ≤ n
  ordered : ∀ {k w}, Iterates n (along (ofGrid initial)) k w → w.row ≤ w.col
  /-- An iteration does not fail, and the same vectors solve the equations before and after it. -/
  solutions : ∀ {k w}, Iterates n (along (ofGrid initial)) k w → w.Ongoing n →
    ∃ next, w.advance = .ok next ∧ ∃ g h : Grid ℚ m (n + 1), w.matrix = ofGrid g ∧
      next.matrix = ofGrid h ∧ ∀ x, h.Satisfies x ↔ g.Satisfies x
  /-- The pivots stand in the rows from the top, each one alone in its column. -/
  unit : ∀ {k w}, Iterates n (along (ofGrid initial)) k w → w.pivots.length = w.row ∧
    w.row ≤ m ∧ ∀ q (c : Nat), w.pivots[q]? = some c →
      ∀ i : Fin m, w.matrix.get i.val c = .ok (if i.val = q then 1 else 0)

/-- All that the proof needs of a walk that has arrived somewhere is the grid it has made of the
initial one there, with its pivots. -/
theorem reduces (initial : Grid ℚ m (n + 1)) : Reduces initial where
  ends := by
    have first : Iterates n (along (ofGrid initial)) 0 (before 0 ⟨initial, 0⟩ []) := .start
    obtain ⟨k, bound, final, placed, reached, stopped, run⟩ := Iterates.ends (Nat.zero_le n) first
    exact ⟨k, bound, _, final, reached, stopped, run, rfl, rfl⟩
  bounded := fun arrived => arrived.echelon.1
  ordered := by
    intro k w arrived
    obtain ⟨-, s, pivots, rfl, echelon⟩ := arrived.echelon
    exact echelon.placed_le_treated
  solutions := by
    intro k w arrived ongoing
    obtain ⟨-, s, pivots, rfl, echelon⟩ := arrived.echelon
    obtain ⟨left, inside⟩ := ongoing
    obtain ⟨next, placed, moved, later⟩ := advance_echelon (c := ⟨k, inside⟩) echelon left
    refine ⟨_, moved, s.grid, next.grid, rfl, rfl, fun x => ?_⟩
    rw [later.equivalent.satisfies_iff, echelon.equivalent.satisfies_iff]
  unit := by
    intro k w arrived
    obtain ⟨-, s, pivots, rfl, echelon⟩ := arrived.echelon
    refine ⟨(List.length_map _).trans echelon.count, echelon.fits, fun q c found i => ?_⟩
    rw [before, List.getElem?_map, Option.map_eq_some_iff] at found
    obtain ⟨d, placed, rfl⟩ := found
    rw [← echelon.unit q d placed i]
    exact DenseMatrix.get_ofGrid s.grid i d.castSucc

/-- The first column of `growing` is passed over although none of its numbers is zero. The pivot of
the second one stands in row zero, and it is alone there. -/
theorem growing_walk :
    ∃ w, Iterates 2 (along (ofGrid growing.augmented)) 2 w ∧ ¬w.Ongoing 2 ∧ w.row = 1 ∧
      w.pivots = [1] ∧ ∀ i : Fin 3, w.matrix.get i.val 1 = .ok (if i.val = 0 then 1 else 0) := by
  let none : List (Fin 2) := []
  have first : Iterates 2 (along (ofGrid growing.augmented)) 0
    (before 0 ⟨growing.augmented, 0⟩ none) := .start
  have skipped : (before 0 ⟨growing.augmented, 0⟩ none).advance =
    .ok (before 1 ⟨growing.augmented, 0⟩ none) :=
    advance_skipped (c := (0 : Fin 2)) (by decide) (by decide +kernel)
  have placed : (before 1 ⟨growing.augmented, 0⟩ none).advance = .ok (before 2 _ [1]) :=
    advance_placed (c := (1 : Fin 2)) (by decide) (by decide +kernel)
  have arrived := (first.next (by decide) skipped).next (by decide) placed
  exact ⟨_, arrived, by decide, rfl, rfl, ((reduces growing.augmented).unit arrived).2.2 0 1 rfl⟩

end Walk

end MatrixCalculator.LinearSystem
