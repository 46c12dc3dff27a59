import MatrixCalculator.Grid
import MatrixCalculator.Scalar

/-! Elementary row operations and the choice of a pivot. Each operation is described by what
it does to every cell. -/
namespace MatrixCalculator.Grid

variable {α : Type} {m n : Nat}

def swapRows (i j : Fin m) (g : Grid α m n) : Grid α m n :=
  ofFn fun r c => g.get (if r = i then j else if r = j then i else r) c

@[simp] theorem get_swapRows (i j r : Fin m) (c : Fin n) (g : Grid α m n) :
    (g.swapRows i j).get r c = g.get (if r = i then j else if r = j then i else r) c :=
  get_ofFn _ r c

@[simp] theorem swapRows_self (i : Fin m) (g : Grid α m n) : g.swapRows i i = g := by
  apply ext
  intro r c
  rw [get_swapRows]
  split <;> simp_all

theorem get_swapRows_right (i j : Fin m) (c : Fin n) (g : Grid α m n) :
    (g.swapRows i j).get j c = g.get i c := by
  by_cases same : j = i
  · rw [same, swapRows_self]
  · rw [get_swapRows, if_neg same, if_pos rfl]

def scaleRow [Mul α] (i : Fin m) (factor : α) (g : Grid α m n) : Grid α m n :=
  ofFn fun r c => if r = i then g.get r c * factor else g.get r c

@[simp] theorem get_scaleRow [Mul α] (i r : Fin m) (c : Fin n) (factor : α) (g : Grid α m n) :
    (g.scaleRow i factor).get r c = if r = i then g.get r c * factor else g.get r c :=
  get_ofFn _ r c

/-- Adds a multiple of the row `source` to every row that has a factor. -/
def addMultiples [Add α] [Mul α] (source : Fin m) (factor : Fin m → Option α)
    (g : Grid α m n) : Grid α m n :=
  ofFn fun r c => match factor r with
    | none => g.get r c
    | some f => g.get r c + f * g.get source c

@[simp] theorem get_addMultiples [Add α] [Mul α] (source r : Fin m) (c : Fin n)
    (factor : Fin m → Option α) (g : Grid α m n) :
    (g.addMultiples source factor).get r c = match factor r with
      | none => g.get r c
      | some f => g.get r c + f * g.get source c :=
  get_ofFn _ r c

def addRow [Add α] [Mul α] (target source : Fin m) (factor : α) (g : Grid α m n) : Grid α m n :=
  g.addMultiples source fun r => if r = target then some factor else none

theorem get_addRow [Add α] [Mul α] (target source r : Fin m) (c : Fin n) (factor : α)
    (g : Grid α m n) :
    (g.addRow target source factor).get r c =
      if r = target then g.get r c + factor * g.get source c else g.get r c := by
  rw [addRow, get_addMultiples]
  split <;> split <;> simp_all

def rowsBelow (start : Fin m) : List (Fin m) :=
  (List.finRange m).filter (start < ·)

/-- The row at or below `start` whose cell in column `j` has the largest magnitude; of equally
large ones the first. -/
def pivotRow [Scalar α] (g : Grid α m n) (j : Fin n) (start : Fin m) : Fin m :=
  (rowsBelow start).foldl (fun best r =>
    if Scalar.magnitude (g.get best j) < Scalar.magnitude (g.get r j) then r else best) start

end MatrixCalculator.Grid
