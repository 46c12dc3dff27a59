import MatrixCalculator.Grid.Elimination
import MatrixCalculator.Value

/-! Systems of linear equations and their reduction to row echelon form. -/
namespace MatrixCalculator

/-- The equations `coefficients · x = constants`. -/
structure LinearSystem (α : Type) where
  equations : Nat
  unknowns : Nat
  coefficients : Grid α equations unknowns
  constants : Grid α equations 1

namespace LinearSystem

variable {α : Type}

/-- The system that two values form: a matrix with at least one column and a column of as many
rows. -/
def ofValues : Value α → Value α → Except Fault (LinearSystem α)
  | .scalar _, _ => .error (.notSystem .coefficientsNotMatrix)
  | .matrix _, .scalar _ => .error (.notSystem .constantsNotMatrix)
  | .matrix a, .matrix b =>
    if a.cols = 0 then .error (.notSystem .noUnknowns)
    else if rows : b.rows = a.rows then
      if column : b.cols = 1 then .ok ⟨a.rows, a.cols, a.grid, b.grid.cast rows column⟩
      else .error (.notSystem (.constantColumns b.cols))
    else .error (.notSystem (.rowCounts a.rows b.rows))

def augmented (s : LinearSystem α) : Grid α s.equations (s.unknowns + 1) :=
  Grid.ofFn fun i j =>
    if unknown : j.val < s.unknowns then s.coefficients.get i ⟨j, unknown⟩ else s.constants.get i 0

structure Reduction (α : Type) (m n : Nat) where
  grid : Grid α m (n + 1)
  /-- How many pivots have been placed, in the rows from the top. -/
  placed : Nat

namespace Reduction

variable [Scalar α] {m n : Nat}

/-- The factors by which the pivot row `r` clears column `c` in all other rows. -/
def factorsAround (r : Fin m) (c : Fin n) (g : Grid α m (n + 1)) (i : Fin m) : Option α :=
  if i = r then none else some (-g.get i c.castSucc)

/-- Places a pivot in row `r` and column `c`: brings up row `p`, makes the pivot one and clears
the rest of the column. -/
def place (r p : Fin m) (c : Fin n) (g : Grid α m (n + 1)) : Except Fault (Grid α m (n + 1)) := do
  let swapped := g.swapRows p r
  let pivot ← Grid.divisor (swapped.get r c.castSucc)
  let scaled := swapped.scaleRow r (1 / pivot)
  return scaled.addMultiples r (factorsAround r c scaled)

/-- Treats one column. It holds no pivot if all rows have one or if its largest number below the
placed pivots counts as zero. -/
def step (s : Reduction α m n) (c : Fin n) : Except Fault (Reduction α m n) :=
  if left : s.placed < m then
    let r : Fin m := ⟨s.placed, left⟩
    let p := s.grid.pivotRow c.castSucc r
    if isZero (s.grid.get p c.castSucc) then .ok s
    else return ⟨← place r p c s.grid, s.placed + 1⟩
  else .ok s

def run (columns : List (Fin n)) (s : Reduction α m n) : Except Fault (Reduction α m n) :=
  columns.foldlM step s

end Reduction

def reduce [Scalar α] (s : LinearSystem α) : Except Fault (Reduction α s.equations s.unknowns) :=
  Reduction.run (List.finRange s.unknowns) ⟨s.augmented, 0⟩

end LinearSystem

end MatrixCalculator
