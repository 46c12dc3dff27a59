import MatrixCalculator.Calculation
import MatrixCalculator.Fault
import MatrixCalculator.Grid.Arithmetic
import MatrixCalculator.Grid.RowOperation
import MatrixCalculator.Tolerance

/-! Determinant and inverse of square grids by elimination with partial pivoting. A division by
an exact zero is a fault of the elimination; pivots are tested for zero with tolerance before. -/
namespace MatrixCalculator.Grid

variable {α : Type} [Scalar α] {n : Nat}

def divisor (x : α) : Except Fault α :=
  if x == 0 then .error .zeroDivisor else .ok x

/-- The factors by which row `k` clears column `k` in the rows below. -/
def factorsBelow (k : Fin n) (pivot : α) (g : Grid α n n) (i : Fin n) : Option α :=
  if k < i then some (-(g.get i k / pivot)) else none

/-- The factors by which row `k`, whose pivot is one, clears column `k` in the rows above. -/
def factorsAbove (k : Fin n) (g : Grid α n n) (i : Fin n) : Option α :=
  if i < k then some (-g.get i k) else none

structure Elimination (α : Type) (n : Nat) where
  determinant : α
  /-- The first column in which no number could serve as a pivot. -/
  pivotless : Option (Fin n)

/-- Elimination below the diagonal in the given columns. An exchange of rows flips the sign of
the product of the pivots, and a column without a pivot ends the elimination. -/
def eliminateFrom : List (Fin n) → Grid α n n → α → Except Fault (Elimination α n)
  | [], _, product => .ok ⟨product, none⟩
  | k :: rest, g, product =>
    let p := g.pivotRow k k
    if isZero (g.get p k) then .ok ⟨0, some k⟩
    else do
      let swapped := g.swapRows p k
      let pivot ← divisor (swapped.get k k)
      eliminateFrom rest (swapped.addMultiples k (factorsBelow k pivot swapped))
        ((if p = k then product else -product) * pivot)

def eliminate (g : Grid α n n) : Except Fault (Elimination α n) :=
  eliminateFrom (List.finRange n) g 1

def determinant (g : Grid α n n) : Calculation Fault α := do
  let elimination ← Calculation.ofExcept g.eliminate
  match elimination.pivotless with
  | some column => Calculation.note (.noPivot column)
  | none => pure ()
  return elimination.determinant

/-- Two grids that undergo the same row operations. -/
structure Tandem (α : Type) (n : Nat) where
  work : Grid α n n
  record : Grid α n n

namespace Tandem

def swapRows (i j : Fin n) (t : Tandem α n) : Tandem α n :=
  ⟨t.work.swapRows i j, t.record.swapRows i j⟩

def scaleRow (i : Fin n) (factor : α) (t : Tandem α n) : Tandem α n :=
  ⟨t.work.scaleRow i factor, t.record.scaleRow i factor⟩

def addMultiples (source : Fin n) (factor : Fin n → Option α) (t : Tandem α n) : Tandem α n :=
  ⟨t.work.addMultiples source factor, t.record.addMultiples source factor⟩

/-- Brings the largest number of column `k` into the diagonal and clears the column below. -/
def clearBelow (t : Tandem α n) (k : Fin n) : Except Fault (Tandem α n) := do
  let swapped := t.swapRows (t.work.pivotRow k k) k
  let pivot ← divisor (swapped.work.get k k)
  return swapped.addMultiples k (factorsBelow k pivot swapped.work)

def normalize (t : Tandem α n) (k : Fin n) : Except Fault (Tandem α n) := do
  let pivot ← divisor (t.work.get k k)
  return t.scaleRow k (1 / pivot)

def clearAbove (t : Tandem α n) (k : Fin n) : Tandem α n :=
  t.addMultiples k (factorsAbove k t.work)

/-- Clears all columns below the diagonal, makes all pivots one, and clears all columns above
the diagonal from the last one backwards. -/
def reduce (t : Tandem α n) : Except Fault (Tandem α n) := do
  let triangular ← (List.finRange n).foldlM clearBelow t
  let normalized ← (List.finRange n).foldlM normalize triangular
  return (List.finRange n).reverse.foldl clearAbove normalized

end Tandem

/-- The record of the row operations that turn a grid with a nonzero determinant into the
identity. -/
def inverse (g : Grid α n n) : Calculation Fault (Grid α n n) := do
  let size ← g.determinant
  if isZero size then Calculation.fail .singular
  else
    let reduced ← Calculation.ofExcept (Tandem.reduce ⟨g, identity n⟩)
    return reduced.record

end MatrixCalculator.Grid
