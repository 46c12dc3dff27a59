import MatrixCalculator.Grid.Elimination

/-! Dense matrices: grids of any shape, with operations that check shapes and indices. A matrix
without rows or without columns is empty and still keeps its other dimension. -/
namespace MatrixCalculator

structure DenseMatrix (α : Type) where
  rows : Nat
  cols : Nat
  grid : Grid α rows cols

namespace DenseMatrix

variable {α : Type}

def ofGrid {m n : Nat} (g : Grid α m n) : DenseMatrix α :=
  ⟨m, n, g⟩

def ofList (rows cols : Nat) (data : List α) : Except Fault (DenseMatrix α) :=
  if fits : data.length = rows * cols then .ok ⟨rows, cols, ⟨data.toArray, by simp [fits]⟩⟩
  else .error (.elementCount rows cols data.length)

/-- A matrix of zeros, or of the given cells. Negative dimensions are refused. -/
def new [Zero α] (rows cols : Int) (data : Option (List α)) : Except Fault (DenseMatrix α) :=
  if rows < 0 ∨ cols < 0 then .error (.invalidDimensions rows cols)
  else match data with
    | none => .ok (ofGrid (Grid.zero rows.toNat cols.toNat))
    | some cells => ofList rows.toNat cols.toNat cells

def identity [Zero α] [One α] (n : Int) : Except Fault (DenseMatrix α) :=
  if n < 0 then .error (.invalidDimensions n n) else .ok (ofGrid (Grid.identity n.toNat))

def ofScalar (x : α) : DenseMatrix α :=
  ofGrid (Grid.ofFn fun (_ _ : Fin 1) => x)

def empty : DenseMatrix α :=
  ofGrid (Grid.ofFn fun (i : Fin 0) (_ : Fin 0) => i.elim0)

/-- The matrix with the given rows. The first row sets the number of columns, and the first row
of another length is reported, counted from one. -/
def ofRows : List (List α) → Except Fault (DenseMatrix α)
  | [] => .ok empty
  | first :: rest =>
    let rows := first :: rest
    match rows.findIdx? fun row => row.length != first.length with
    | some i => .error (.raggedRow (i + 1) ((rows[i]?).getD []).length first.length)
    | none => ofList rows.length first.length rows.flatten

def toRows (m : DenseMatrix α) : List (List α) :=
  m.grid.toRows

def toList (m : DenseMatrix α) : List α :=
  m.grid.toList

def isSquare (m : DenseMatrix α) : Bool :=
  m.rows == m.cols

def isEmpty (m : DenseMatrix α) : Bool :=
  m.rows == 0 || m.cols == 0

/-- Whether the matrix has exactly one cell. -/
def isNumber (m : DenseMatrix α) : Bool :=
  m.rows == 1 && m.cols == 1

def isIdentity [Scalar α] (m : DenseMatrix α) : Bool :=
  m.isSquare &&
    m.grid.entries.all fun (i, j, x) => nearlyEqual x (if i.val = j.val then 1 else 0)

/-- The cell at an index that may lie anywhere. -/
def locate (m : DenseMatrix α) (i j : Int) : Except Fault (Fin m.rows × Fin m.cols) :=
  if inside : (0 ≤ i ∧ i < m.rows) ∧ 0 ≤ j ∧ j < m.cols then
    .ok (⟨i.toNat, by omega⟩, ⟨j.toNat, by omega⟩)
  else .error (.indexOutOfRange i j m.rows m.cols)

/-- The row at an index that may lie anywhere; a row without cells has no index. -/
def locateRow (m : DenseMatrix α) (i : Int) : Except Fault (Fin m.rows) :=
  return (← m.locate i 0).1

def get (m : DenseMatrix α) (i j : Int) : Except Fault α := do
  let (r, c) ← m.locate i j
  return m.grid.get r c

def set (m : DenseMatrix α) (i j : Int) (x : α) : Except Fault (DenseMatrix α) := do
  let (r, c) ← m.locate i j
  return ofGrid (m.grid.set r c x)

/-- Exchanges two rows. Nothing is checked when they are the same. -/
def swapRows (m : DenseMatrix α) (i j : Int) : Except Fault (DenseMatrix α) :=
  if i = j then .ok m
  else do
    let r ← m.locateRow i
    let s ← m.locateRow j
    return ofGrid (m.grid.swapRows r s)

def scaleRow [Mul α] (m : DenseMatrix α) (i : Int) (factor : α) : Except Fault (DenseMatrix α) := do
  let r ← m.locateRow i
  return ofGrid (m.grid.scaleRow r factor)

def addRow [Add α] [Mul α] (m : DenseMatrix α) (target source : Int) (factor : α) :
    Except Fault (DenseMatrix α) := do
  let t ← m.locateRow target
  let s ← m.locateRow source
  return ofGrid (m.grid.addRow t s factor)

def pivotRow [Scalar α] (m : DenseMatrix α) (col start : Int) : Except Fault (Fin m.rows) := do
  let (r, c) ← m.locate start col
  return m.grid.pivotRow c r

def add [Add α] (a b : DenseMatrix α) : Except Fault (DenseMatrix α) :=
  if same : b.rows = a.rows ∧ b.cols = a.cols then
    .ok (ofGrid (a.grid.add (b.grid.cast same.1 same.2)))
  else .error (.sumShapes a.rows a.cols b.rows b.cols)

def mul [Zero α] [Add α] [Mul α] (a b : DenseMatrix α) : Except Fault (DenseMatrix α) :=
  if fits : b.rows = a.cols then .ok (ofGrid (a.grid.mul (b.grid.cast fits rfl)))
  else .error (.productShapes a.rows a.cols b.rows b.cols)

def scale [Mul α] (m : DenseMatrix α) (factor : α) : DenseMatrix α :=
  ofGrid (m.grid.scale factor)

def transpose (m : DenseMatrix α) : DenseMatrix α :=
  ofGrid m.grid.transpose

def square (operation : SquareOperation) (m : DenseMatrix α) :
    Except Fault (Grid α m.rows m.rows) :=
  if same : m.cols = m.rows then .ok (m.grid.cast rfl same)
  else .error (.notSquare operation)

variable [Scalar α]

def determinant (m : DenseMatrix α) : Calculation Fault α := do
  let g ← Calculation.ofExcept (m.square .determinant)
  g.determinant

def inverse (m : DenseMatrix α) : Calculation Fault (DenseMatrix α) := do
  let g ← Calculation.ofExcept (m.square .inverse)
  return ofGrid (← g.inverse)

/-- The power to a whole number up to tolerance. A negative power is a power of the inverse. -/
def power (m : DenseMatrix α) (exponent : α) : Calculation Fault (DenseMatrix α) := do
  let g ← Calculation.ofExcept (m.square .power)
  match Scalar.nearest exponent, isIntegral exponent with
  | some k, true =>
    let base ← if k < 0 then g.inverse else pure g
    return ofGrid (base.power k.natAbs)
  | _, _ => Calculation.fail .fractionalMatrixPower

def equal (a b : DenseMatrix α) : Bool :=
  a.rows == b.rows && a.cols == b.cols &&
    (a.toList.zip b.toList).all fun (x, y) => x == y

def approxEqual (a b : DenseMatrix α) : Bool :=
  a.rows == b.rows && a.cols == b.cols &&
    (a.toList.zip b.toList).all fun (x, y) => nearlyEqual x y

end DenseMatrix

end MatrixCalculator
