import MatrixCalculator.LinearSystem
import MatrixCalculator.Proofs.Checked.Loop
import MatrixCalculator.Proofs.DenseMatrix.OfGrid

/-! Matrices that are filled cell by cell: the augmented matrix of a system, and the column of its
solution. -/
namespace MatrixCalculator.LinearSystem

open Checked (ok_bind foldlM_eq_ok foldlM_range)

variable {α : Type} {m n : Nat}

section Programs

variable [Zero α]

def augment (a b : DenseMatrix α) : Except Fault (DenseMatrix α) := do
  let blank ← DenseMatrix.new a.rows (a.cols + 1) none
  let copied ← a.grid.entries.foldlM (fun m (i, j, x) => m.set i.val j.val x) blank
  (List.range a.rows).foldlM (fun m (i : Nat) => do m.set i a.cols (← b.get i 0)) copied

def solutionColumn (m : DenseMatrix α) (unknowns : Nat) : Except Fault (DenseMatrix α) := do
  let blank ← DenseMatrix.new unknowns 1 none
  (List.range unknowns).foldlM (fun x (i : Nat) => do x.set i 0 (← m.get i unknowns)) blank

end Programs

theorem get_foldl_set {ι : Type} (place : ι → Fin m × Fin n) (target : Grid α m n)
    (items : List ι) (g : Grid α m n) {r : Fin m} {c : Fin n}
    (covered : g.get r c = target.get r c ∨ ∃ k ∈ items, place k = (r, c)) :
    (items.foldl (fun g k => g.set (place k).1 (place k).2
      (target.get (place k).1 (place k).2)) g).get r c = target.get r c := by
  induction items generalizing g with
  | nil => exact covered.elim id fun ⟨k, member, _⟩ => absurd member List.not_mem_nil
  | cons k rest ih =>
    rw [List.foldl_cons]
    apply ih
    by_cases here : r = (place k).1 ∧ c = (place k).2
    · rw [Grid.get_set, if_pos here, here.1, here.2]
      exact .inl rfl
    · rw [Grid.get_set, if_neg here]
      refine covered.imp_right fun ⟨j, member, found⟩ => ?_
      rcases List.mem_cons.mp member with rfl | later
      · rw [found] at here
        exact absurd ⟨rfl, rfl⟩ here
      · exact ⟨j, later, found⟩

theorem mem_entries {g : Grid α m n} {i : Fin m} {j : Fin n} {x : α} :
    (i, j, x) ∈ g.entries ↔ x = g.get i j := by
  simp only [Grid.entries, List.mem_map, List.mem_finRange, true_and, Prod.mk.injEq, Grid.get]
  constructor
  · rintro ⟨k, rfl, rfl, rfl⟩
    simp [Grid.offset_rowAt_colAt]
  · rintro rfl
    exact ⟨Grid.offset i j, Grid.rowAt_offset i j, Grid.colAt_offset i j, rfl⟩

theorem augmented_castSucc (s : LinearSystem α) (i : Fin s.equations) (j : Fin s.unknowns) :
    s.augmented.get i j.castSucc = s.coefficients.get i j := by
  simp [LinearSystem.augmented]

theorem augmented_last (s : LinearSystem α) (i : Fin s.equations) :
    s.augmented.get i (Fin.last s.unknowns) = s.constants.get i 0 := by
  simp [LinearSystem.augmented]

variable [Zero α]

theorem augment_ofGrid (s : LinearSystem α) :
    augment (DenseMatrix.ofGrid s.coefficients) (DenseMatrix.ofGrid s.constants) =
      .ok (DenseMatrix.ofGrid s.augmented) := by
  have blank : DenseMatrix.new ((DenseMatrix.ofGrid s.coefficients).rows : Int)
      (((DenseMatrix.ofGrid s.coefficients).cols : Int) + 1) none =
        .ok (DenseMatrix.ofGrid (Grid.zero s.equations (s.unknowns + 1) : Grid α _ _)) :=
    DenseMatrix.new_natCast s.equations (s.unknowns + 1)
  let cell (entry : Fin s.equations × Fin s.unknowns × α) := (entry.1, entry.2.1.castSucc)
  let border (i : Fin s.equations) := (i, Fin.last s.unknowns)
  have copied (g : Grid α s.equations (s.unknowns + 1)) :
      s.coefficients.entries.foldlM (fun m (i, j, x) => m.set i.val j.val x)
        (DenseMatrix.ofGrid g) =
      .ok (DenseMatrix.ofGrid (s.coefficients.entries.foldl (fun g entry =>
        g.set (cell entry).1 (cell entry).2
          (s.augmented.get (cell entry).1 (cell entry).2)) g)) := by
    refine foldlM_eq_ok DenseMatrix.ofGrid _ (fun g ⟨i, j, x⟩ member => ?_) g
    rw [mem_entries.mp member, ← augmented_castSucc]
    exact DenseMatrix.set_ofGrid g i j.castSucc _
  have bordered (g : Grid α s.equations (s.unknowns + 1)) :
      (List.range s.equations).foldlM (fun (m : DenseMatrix α) (i : Nat) => do
        m.set i s.unknowns (← (DenseMatrix.ofGrid s.constants).get i 0)) (DenseMatrix.ofGrid g) =
      .ok (DenseMatrix.ofGrid ((List.finRange s.equations).foldl (fun g i =>
        g.set (border i).1 (border i).2 (s.augmented.get (border i).1 (border i).2)) g)) := by
    rw [foldlM_range]
    refine foldlM_eq_ok DenseMatrix.ofGrid _ (fun g i _ => ?_) g
    have constant : (DenseMatrix.ofGrid s.constants).get i 0 = .ok (s.constants.get i 0) :=
      DenseMatrix.get_ofGrid s.constants i 0
    rw [constant, ok_bind, ← augmented_last]
    exact DenseMatrix.set_ofGrid g i (Fin.last s.unknowns) _
  rw [augment, blank, ok_bind]
  refine (congrArg (· >>= _) (copied _)).trans ?_
  rw [ok_bind]
  refine (bordered _).trans ?_
  refine congrArg (fun g => Except.ok (DenseMatrix.ofGrid g)) ?_
  apply Grid.ext
  intro i j
  refine get_foldl_set border s.augmented _ _ ?_
  rcases Fin.eq_castSucc_or_eq_last j with ⟨c, rfl⟩ | rfl
  · refine .inl (get_foldl_set cell s.augmented _ _ (.inr ⟨(i, c, _), mem_entries.mpr rfl, rfl⟩))
  · exact .inr ⟨i, List.mem_finRange i, rfl⟩

theorem solutionColumn_ofGrid (g : Grid α m (n + 1)) (rowOf : Fin n → Fin m)
    (numbered : ∀ i, (rowOf i).val = i.val) :
    solutionColumn (DenseMatrix.ofGrid g) n =
      .ok (DenseMatrix.ofGrid (Grid.ofFn fun i (_ : Fin 1) => g.get (rowOf i) (Fin.last n))) := by
  let target : Grid α n 1 := Grid.ofFn fun i _ => g.get (rowOf i) (Fin.last n)
  have blank : DenseMatrix.new (n : Int) 1 none =
      .ok (DenseMatrix.ofGrid (Grid.zero n 1 : Grid α n 1)) := DenseMatrix.new_natCast n 1
  have filled (x : Grid α n 1) :
      (List.range n).foldlM (fun (x : DenseMatrix α) (i : Nat) => do
        x.set i 0 (← (DenseMatrix.ofGrid g).get i n)) (DenseMatrix.ofGrid x) =
      .ok (DenseMatrix.ofGrid
        ((List.finRange n).foldl (fun x i => x.set i 0 (target.get i 0)) x)) := by
    rw [foldlM_range]
    refine foldlM_eq_ok DenseMatrix.ofGrid _ (fun x i _ => ?_) x
    have number : (DenseMatrix.ofGrid g).get i n = .ok (target.get i 0) := by
      rw [Grid.get_ofFn, ← numbered i]
      exact DenseMatrix.get_ofGrid g (rowOf i) (Fin.last n)
    rw [number, ok_bind]
    exact DenseMatrix.set_ofGrid x i 0 _
  rw [solutionColumn, blank, ok_bind]
  refine (filled _).trans ?_
  refine congrArg (fun g => Except.ok (DenseMatrix.ofGrid g)) ?_
  apply Grid.ext
  intro i j
  rw [Fin.eq_zero j]
  exact get_foldl_set (fun i => (i, 0)) target _ _ (.inr ⟨i, List.mem_finRange i, rfl⟩)

end MatrixCalculator.LinearSystem
