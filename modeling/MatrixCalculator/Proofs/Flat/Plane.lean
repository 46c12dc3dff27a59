import MatrixCalculator.Proofs.Flat.Memory
import MatrixCalculator.Proofs.Grid.View
import Mathlib.LinearAlgebra.Matrix.RowCol

/-! Storages on the plane of cells. A storage shows a matrix if it has its dimensions and its cells,
row after row; a change in place then is an update of a row, or an exchange of rows, and is
refused exactly if it looks up a cell outside. -/
namespace MatrixCalculator

namespace Grid

variable {α : Type} {m n : Nat}

def ofMatrix (A : Matrix (Fin m) (Fin n) α) : Grid α m n :=
  ofFn fun i j => A i j

@[simp] theorem toMatrix_ofMatrix (A : Matrix (Fin m) (Fin n) α) : (ofMatrix A).toMatrix = A :=
  Matrix.ext fun i j => get_ofFn _ i j

@[simp] theorem ofMatrix_toMatrix (g : Grid α m n) : ofMatrix g.toMatrix = g :=
  ofFn_get g

theorem toMatrix_set (i : Fin m) (j : Fin n) (x : α) (g : Grid α m n) :
    (g.set i j x).toMatrix =
      g.toMatrix.updateRow i (Function.update (g.toMatrix i) j x) := by
  ext r c
  rw [toMatrix_apply, get_set, Matrix.updateRow_apply]
  by_cases row : r = i
  · subst row
    simp [Function.update_apply]
  · simp [row]

theorem toMatrix_swapRows (i j : Fin m) (g : Grid α m n) :
    (g.swapRows i j).toMatrix = g.toMatrix.submatrix (Equiv.swap i j) id := by
  ext r c
  rw [toMatrix_apply, get_swapRows_swap]
  rfl

theorem toMatrix_scaleRow [Mul α] (i : Fin m) (factor : α) (g : Grid α m n) :
    (g.scaleRow i factor).toMatrix =
      g.toMatrix.updateRow i fun c => g.toMatrix i c * factor := by
  ext r c
  rw [toMatrix_apply, get_scaleRow, Matrix.updateRow_apply]
  by_cases row : r = i
  · subst row
    simp
  · simp [row]

theorem toMatrix_addRow [Add α] [Mul α] (target source : Fin m) (factor : α) (g : Grid α m n) :
    (g.addRow target source factor).toMatrix = g.toMatrix.updateRow target
      fun c => g.toMatrix target c + factor * g.toMatrix source c := by
  ext r c
  rw [toMatrix_apply, get_addRow, Matrix.updateRow_apply]
  by_cases row : r = target
  · subst row
    simp
  · simp [row]

theorem toMatrix_zero [Zero α] : (zero m n : Grid α m n).toMatrix = 0 :=
  Matrix.ext fun i j => get_ofFn _ i j

theorem toMatrix_add [Add α] (g h : Grid α m n) : (g.add h).toMatrix = g.toMatrix + h.toMatrix :=
  Matrix.ext fun i j => get_add g h i j

theorem toMatrix_scale [Mul α] (factor : α) (g : Grid α m n) :
    (g.scale factor).toMatrix = g.toMatrix.map (· * factor) :=
  Matrix.ext fun i j => get_scale factor g i j

theorem toMatrix_transpose (g : Grid α m n) : g.transpose.toMatrix = g.toMatrix.transpose :=
  Matrix.ext fun i j => get_transpose g i j

end Grid

namespace Flat

open Workspace (Change)

variable {α : Type} {m n : Nat}

/-- Whether a storage shows a matrix: its dimensions, as many cells as they ask for, and cell
`(i, j)` at offset `i * n + j`. -/
structure Storage.Shows (s : Storage α) (A : Matrix (Fin m) (Fin n) α) : Prop where
  rows : s.rows = m
  cols : s.cols = n
  full : s.data.length = m * n
  cell : ∀ i j, s.data[i.val * n + j.val]? = some (A i j)

theorem shows_ofGrid (g : Grid α m n) : (Storage.ofGrid g).Shows g.toMatrix :=
  ⟨rfl, rfl, g.length_toList, g.getElem?_toList⟩

theorem shows_of_toMatrix {g : Grid α m n} {A : Matrix (Fin m) (Fin n) α} (same : g.toMatrix = A) :
    (Storage.ofGrid g).Shows A :=
  same ▸ shows_ofGrid g

theorem Storage.Shows.eq_ofGrid {s : Storage α} {A : Matrix (Fin m) (Fin n) α} (shown : s.Shows A) :
    s = .ofGrid (Grid.ofMatrix A) := by
  obtain ⟨rows, cols, data⟩ := s
  obtain ⟨rfl, rfl, full, cell⟩ := shown
  have cells : data = (Grid.ofMatrix A).toList :=
    Grid.eq_toList full fun i j => (cell i j).trans (congrArg some (Grid.get_ofFn _ i j).symm)
  rw [cells]
  rfl

/-- The textbook account of a change in place. A row without cells has no index. -/
inductive Changes [Add α] [Mul α] (A : Matrix (Fin m) (Fin n) α) :
    Change α → Matrix (Fin m) (Fin n) α → Prop
  | set (i : Fin m) (j : Fin n) (x : α) :
      Changes A (.set i j x) (A.updateRow i (Function.update (A i) j x))
  | swapRows (i j : Fin m) (wide : 0 < n) :
      Changes A (.swapRows i j) (A.submatrix (Equiv.swap i j) id)
  | swapNothing (i : Int) : Changes A (.swapRows i i) A
  | scaleRow (i : Fin m) (factor : α) (wide : 0 < n) :
      Changes A (.scaleRow i factor) (A.updateRow i fun c => A i c * factor)
  | addRow (target source : Fin m) (factor : α) (wide : 0 < n) :
      Changes A (.addRow target source factor)
        (A.updateRow target fun c => A target c + factor * A source c)

/-- The cells that a change looks up: the first cells of its rows, or the cell itself. -/
def positions : Change α → List (Int × Int)
  | .set i j _ => [(i, j)]
  | .swapRows i j => if i = j then [] else [(i, 0), (j, 0)]
  | .scaleRow i _ => [(i, 0)]
  | .addRow target source _ => [(target, 0), (source, 0)]

def Inside (m n : Nat) (place : Int × Int) : Prop :=
  (0 ≤ place.1 ∧ place.1 < m) ∧ 0 ≤ place.2 ∧ place.2 < n

def Touches : Change α → Int → Int → Prop
  | .set i j _, r, c => r = i ∧ c = j
  | .swapRows i j, r, _ => r = i ∨ r = j
  | .scaleRow i _, r, _ => r = i
  | .addRow target _ _, r, _ => r = target

theorem Changes.untouched [Add α] [Mul α] {A B : Matrix (Fin m) (Fin n) α} {change : Change α}
    (changes : Changes A change B) {i : Fin m} {j : Fin n}
    (away : ¬Touches change i.val j.val) : B i j = A i j := by
  cases changes with
  | set r c x =>
    rw [Matrix.updateRow_apply]
    split
    · next row =>
      subst row
      have column : j ≠ c := fun same => away ⟨rfl, by rw [same]⟩
      rw [Function.update_of_ne column]
    · rfl
  | swapRows r s wide =>
    have first : i ≠ r := fun same => away (.inl (by rw [same]))
    have second : i ≠ s := fun same => away (.inr (by rw [same]))
    rw [Matrix.submatrix_apply, Equiv.swap_apply_of_ne_of_ne first second]
    rfl
  | swapNothing => rfl
  | scaleRow r factor wide =>
    have row : i ≠ r := fun same => away (congrArg (fun i : Fin m => (i.val : Int)) same)
    rw [Matrix.updateRow_ne row]
  | addRow target source factor wide =>
    have row : i ≠ target := fun same => away (congrArg (fun i : Fin m => (i.val : Int)) same)
    rw [Matrix.updateRow_ne row]

theorem locate_cases (g : Grid α m n) (i j : Int) :
    (∃ (r : Fin m) (c : Fin n), i = r.val ∧ j = c.val ∧
      (DenseMatrix.ofGrid g).locate i j = .ok (r, c)) ∨
    ¬Inside m n (i, j) ∧
      (DenseMatrix.ofGrid g).locate i j = .error (.indexOutOfRange i j m n) := by
  by_cases inside : Inside m n (i, j)
  · obtain ⟨⟨low, high⟩, left, right⟩ := inside
    lift i to Nat using low
    lift j to Nat using left
    have row : i < m := by simpa using high
    have column : j < n := by simpa using right
    exact .inl ⟨⟨i, row⟩, ⟨j, column⟩, rfl, rfl, DenseMatrix.locate_ofGrid g ⟨i, row⟩ ⟨j, column⟩⟩
  · exact .inr ⟨inside, dif_neg inside⟩

theorem locateRow_cases (g : Grid α m n) (i : Int) :
    (∃ r : Fin m, 0 < n ∧ i = r.val ∧ (DenseMatrix.ofGrid g).locateRow i = .ok r) ∨
    ¬Inside m n (i, 0) ∧
      (DenseMatrix.ofGrid g).locateRow i = .error (.indexOutOfRange i 0 m n) := by
  unfold DenseMatrix.locateRow
  rcases locate_cases g i 0 with ⟨r, c, row, _, found⟩ | ⟨outside, refused⟩
  · rw [found]
    exact .inl ⟨r, Fin.pos c, row, rfl⟩
  · rw [refused]
    exact .inr ⟨outside, rfl⟩

theorem changed_cases (g : Grid Float m n) (change : Change Float) :
    (∃ h : Grid Float m n, Changes g.toMatrix change h.toMatrix ∧
      Workspace.changed (.ofGrid g) change = .ok (.ofGrid h)) ∨
    ∃ place ∈ positions change, ¬Inside m n place ∧
      Workspace.changed (.ofGrid g) change = .error (.indexOutOfRange place.1 place.2 m n) := by
  cases change with
  | set i j x =>
    simp only [Workspace.changed, DenseMatrix.set]
    rcases locate_cases g i j with ⟨r, c, rfl, rfl, found⟩ | ⟨outside, refused⟩
    · rw [found]
      refine .inl ⟨g.set r c x, ?_, rfl⟩
      rw [Grid.toMatrix_set]
      exact .set r c x
    · rw [refused]
      exact .inr ⟨(i, j), List.mem_singleton_self _, outside, rfl⟩
  | swapRows i j =>
    simp only [Workspace.changed, DenseMatrix.swapRows]
    by_cases same : i = j
    · subst same
      rw [if_pos rfl]
      exact .inl ⟨g, .swapNothing i, rfl⟩
    · have looked : positions (.swapRows i j : Change Float) = [(i, 0), (j, 0)] := if_neg same
      rw [if_neg same, looked]
      rcases locateRow_cases g i with ⟨r, wide, rfl, first⟩ | ⟨outside, refused⟩
      · rcases locateRow_cases g j with ⟨s, _, rfl, second⟩ | ⟨outside, refused⟩
        · rw [first, second]
          refine .inl ⟨g.swapRows r s, ?_, rfl⟩
          rw [Grid.toMatrix_swapRows]
          exact .swapRows r s wide
        · rw [first, refused]
          exact .inr ⟨(j, 0), by simp, outside, rfl⟩
      · rw [refused]
        exact .inr ⟨(i, 0), by simp, outside, rfl⟩
  | scaleRow i factor =>
    simp only [Workspace.changed, DenseMatrix.scaleRow]
    rcases locateRow_cases g i with ⟨r, wide, rfl, found⟩ | ⟨outside, refused⟩
    · rw [found]
      refine .inl ⟨g.scaleRow r factor, ?_, rfl⟩
      rw [Grid.toMatrix_scaleRow]
      exact .scaleRow r factor wide
    · rw [refused]
      exact .inr ⟨(i, 0), List.mem_singleton_self _, outside, rfl⟩
  | addRow target source factor =>
    simp only [Workspace.changed, DenseMatrix.addRow]
    rcases locateRow_cases g target with ⟨t, wide, rfl, first⟩ | ⟨outside, refused⟩
    · rcases locateRow_cases g source with ⟨s, _, rfl, second⟩ | ⟨outside, refused⟩
      · rw [first, second]
        refine .inl ⟨g.addRow t s factor, ?_, rfl⟩
        rw [Grid.toMatrix_addRow]
        exact .addRow t s factor wide
      · rw [first, refused]
        exact .inr ⟨(source, 0), by simp [positions], outside, rfl⟩
    · rw [refused]
      exact .inr ⟨(target, 0), by simp [positions], outside, rfl⟩

end Flat

end MatrixCalculator
