import MatrixCalculator.LinearSystem.Solution
import MatrixCalculator.Proofs.LinearSystem.Filling

/-! What is read off a reduced matrix by scans of its rows and columns: the rank, a contradiction,
and the solution or the lines that describe all solutions. -/
namespace MatrixCalculator.LinearSystem

open Checked (ok_bind between between_eq_map allM_eq_ok findM?_eq_ok mapM_eq_ok foldlM_eq_ok
  findIdx_finRange)

variable {α : Type} [Scalar α] {m n : Nat}

structure Report (α : Type) where
  kind : String
  rank : Nat
  unknowns : Nat
  solution : Option (DenseMatrix α)
  parametrization : List String

def Solution.report (found : Solution α n) : Report α where
  kind := found.outcome.kind
  rank := found.rank
  unknowns := n
  solution := found.solution?.map DenseMatrix.ofGrid
  parametrization := found.lines.map Line.text

namespace Scan

def nonzeroAt (m : DenseMatrix α) (i j : Nat) : Except Fault Bool := do
  return !isZero (← m.get i j)

def zeroRow (m : DenseMatrix α) (unknowns i : Nat) : Except Fault Bool :=
  (List.range unknowns).allM fun (j : Nat) => return isZero (← m.get i j)

def rank (m : DenseMatrix α) (unknowns : Nat) : Except Fault Nat := do
  let last ← (List.range m.rows).reverse.findM? fun i => return !(← zeroRow m unknowns i)
  return (last.map (· + 1)).getD 0

def contradiction (m : DenseMatrix α) (unknowns rank : Nat) : Except Fault (Option Nat) :=
  (between rank m.rows).reverse.findM? fun i => nonzeroAt m i unknowns

def leading (m : DenseMatrix α) (unknowns i : Nat) : Except Fault Nat := do
  return (← (List.range unknowns).findM? (nonzeroAt m i)).getD unknowns

/-- The term that a coefficient becomes on the other side. -/
def term (coefficient : α) (unknown : Nat) : Term α :=
  ⟨decide (0 < coefficient), Scalar.magnitude coefficient, unknown⟩

def appendTerm (m : DenseMatrix α) (i : Nat) (line : String) (k : Nat) : Except Fault String := do
  let coefficient ← m.get i k
  if isZero coefficient then return line
  else return line ++ (term coefficient k).text

def opening (unknown : Nat) (constant : α) : String :=
  (Line.mk unknown constant []).text

def line (m : DenseMatrix α) (unknowns i : Nat) : Except Fault String := do
  let j ← leading m unknowns i
  let constant ← m.get i unknowns
  (between (j + 1) unknowns).foldlM (appendTerm m i) (opening j constant)

def readOff (m : DenseMatrix α) (unknowns : Nat) : Except Fault (Report α) := do
  let r ← rank m unknowns
  match ← contradiction m unknowns r with
  | some _ => return ⟨"incompatible", r, unknowns, none, []⟩
  | none =>
    if r = unknowns then
      return ⟨"compatible determined", r, unknowns, some (← solutionColumn m unknowns), []⟩
    else
      return ⟨"compatible indeterminate", r, unknowns, none,
        ← (List.range r).mapM (line m unknowns)⟩

theorem nonzeroAt_ofGrid (g : Grid α m n) (i : Fin m) (j : Fin n) :
    nonzeroAt (DenseMatrix.ofGrid g) i j = .ok (!isZero (g.get i j)) := by
  rw [nonzeroAt, DenseMatrix.get_ofGrid]
  rfl

theorem zeroRow_ofGrid (g : Grid α m (n + 1)) (i : Fin m) :
    zeroRow (DenseMatrix.ofGrid g) n i = .ok (LinearSystem.zeroRow g i) := by
  rw [zeroRow, ← List.map_coe_finRange_eq_range]
  refine allM_eq_ok (fun j => ?_) _
  have number : (DenseMatrix.ofGrid g).get i j = .ok (g.get i j.castSucc) :=
    DenseMatrix.get_ofGrid g i j.castSucc
  rw [number]
  rfl

theorem rank_ofGrid (g : Grid α m (n + 1)) :
    rank (DenseMatrix.ofGrid g) n = .ok (LinearSystem.rank g) := by
  have scanned : (List.range m).reverse.findM?
      (fun i => return !(← zeroRow (DenseMatrix.ofGrid g) n i)) =
      .ok ((LinearSystem.lowest fun i => !LinearSystem.zeroRow g i).map Fin.val) := by
    rw [← List.map_coe_finRange_eq_range, ← List.map_reverse]
    refine findM?_eq_ok (fun i => ?_) _
    rw [zeroRow_ofGrid]
    rfl
  rw [rank]
  refine (congrArg (· >>= _) scanned).trans ?_
  rw [LinearSystem.rank]
  cases LinearSystem.lowest fun i => !LinearSystem.zeroRow g i <;> rfl

theorem contradiction_ofGrid (g : Grid α m (n + 1)) :
    contradiction (DenseMatrix.ofGrid g) n (LinearSystem.rank g) =
      .ok ((LinearSystem.contradiction g).map Fin.val) := by
  have rows : (between (LinearSystem.rank g) m).reverse =
      ((List.finRange m).filter fun i => decide (LinearSystem.rank g ≤ i.val)).reverse.map
        Fin.val := by
    rw [between_eq_map, List.map_reverse]
  show (between (LinearSystem.rank g) m).reverse.findM?
    (fun i => nonzeroAt (DenseMatrix.ofGrid g) i n) = _
  rw [rows]
  refine (findM?_eq_ok (fun i => nonzeroAt_ofGrid g i (Fin.last n)) _).trans ?_
  rw [LinearSystem.contradiction, LinearSystem.lowest, ← List.filter_reverse, List.find?_filter]
  simp

theorem leading_ofGrid (g : Grid α m (n + 1)) (i : Fin m) :
    leading (DenseMatrix.ofGrid g) n i = .ok (LinearSystem.leading g i) := by
  have scanned : (List.range n).findM? (nonzeroAt (DenseMatrix.ofGrid g) i) =
      .ok (((List.finRange n).find? fun (j : Fin n) =>
        !isZero (g.get i j.castSucc)).map Fin.val) := by
    rw [← List.map_coe_finRange_eq_range]
    exact findM?_eq_ok (fun (j : Fin n) => nonzeroAt_ofGrid g i j.castSucc) _
  rw [leading, scanned, ok_bind, LinearSystem.leading, findIdx_finRange]
  rfl

theorem appendTerm_ofGrid (g : Grid α m n) (i : Fin m) (j : Fin n) (line : String) :
    appendTerm (DenseMatrix.ofGrid g) i line j =
      .ok (if isZero (g.get i j) then line else line ++ (term (g.get i j) j).text) := by
  rw [appendTerm, DenseMatrix.get_ofGrid, ok_bind]
  exact (apply_ite Except.ok _ _ _).symm

theorem foldl_append (items : List String) (first second : String) :
    items.foldl (· ++ ·) (first ++ second) = first ++ items.foldl (· ++ ·) second := by
  induction items generalizing second with
  | nil => rfl
  | cons item rest ih => rw [List.foldl_cons, List.foldl_cons, String.append_assoc, ih]

theorem text_lineOf (g : Grid α m (n + 1)) (i : Fin m) :
    (lineOf g i).text =
      ((List.finRange n).filter fun j => decide (LinearSystem.leading g i < j.val)).foldl
        (fun line (j : Fin n) => if isZero (g.get i j.castSucc) then line
          else line ++ (term (g.get i j.castSucc) j).text)
        (opening (LinearSystem.leading g i) (g.get i (Fin.last n))) := by
  rw [List.foldl_filter, opening, Line.text, Line.text, String.join, String.join]
  simp only [lineOf]
  rw [← foldl_append, List.foldl_map, List.foldl_filterMap]
  congr 1
  funext line j
  by_cases after : LinearSystem.leading g i < j
  · cases isZero (g.get i j.castSucc) <;> simp [after, term]
  · simp [after]

theorem line_ofGrid (g : Grid α m (n + 1)) (i : Fin m) :
    line (DenseMatrix.ofGrid g) n i = .ok (lineOf g i).text := by
  have constant : (DenseMatrix.ofGrid g).get i n = .ok (g.get i (Fin.last n)) :=
    DenseMatrix.get_ofGrid g i (Fin.last n)
  rw [line, leading_ofGrid, ok_bind, constant, ok_bind, between_eq_map, List.foldlM_map,
    text_lineOf]
  refine foldlM_eq_ok id _ (fun line j _ => ?_) _
  exact appendTerm_ofGrid g i j.castSucc line

theorem range_rank (g : Grid α m (n + 1)) :
    List.range (LinearSystem.rank g) =
      ((List.finRange m).take (LinearSystem.rank g)).map Fin.val := by
  rw [List.map_take, List.map_coe_finRange_eq_range, List.take_range, Nat.min_eq_left (rank_le g)]

theorem lines_ofGrid (g : Grid α m (n + 1)) :
    (List.range (LinearSystem.rank g)).mapM (line (DenseMatrix.ofGrid g) n) =
      .ok ((parametrization g).map Line.text) := by
  rw [range_rank, parametrization, List.map_map]
  exact mapM_eq_ok (fun i => line_ofGrid g i) _

/-- The scans end with a report, and report the solution that the grid shows. -/
theorem readOff_ofGrid (g : Grid α m (n + 1)) :
    ∃ found, (classify g).outcome = .ok found ∧
      readOff (DenseMatrix.ofGrid g) n = .ok found.report := by
  rw [readOff, rank_ofGrid, ok_bind, contradiction_ofGrid, ok_bind, classify]
  cases LinearSystem.contradiction g with
  | some i => exact ⟨_, rfl, rfl⟩
  | none =>
    dsimp only [Option.map_none]
    split
    · next full =>
      let rowOf (i : Fin n) : Fin m :=
        ⟨i, Nat.lt_of_lt_of_le (full.symm ▸ i.isLt) (rank_le g)⟩
      rw [solutionColumn_ofGrid g rowOf fun _ => rfl]
      exact ⟨_, rfl, rfl⟩
    · rw [lines_ofGrid]
      exact ⟨_, rfl, rfl⟩

end Scan

end MatrixCalculator.LinearSystem
