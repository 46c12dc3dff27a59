import MatrixCalculator.Display
import MatrixCalculator.LinearSystem

/-! Solutions of linear systems. A system is determined, indeterminate or incompatible; an
indeterminate one is described by one line for each dependent variable. -/
namespace MatrixCalculator.LinearSystem

variable {α : Type}

/-- A multiple of a variable on the right-hand side of a line. -/
structure Term (α : Type) where
  subtracted : Bool
  factor : α
  unknown : Nat

/-- A dependent variable in terms of later ones. Variables are counted from zero. -/
structure Line (α : Type) where
  unknown : Nat
  constant : α
  terms : List (Term α)

inductive Outcome (α : Type) (n : Nat)
  | determined (solution : Grid α n 1)
  | indeterminate (lines : List (Line α))
  | incompatible

structure Solution (α : Type) (n : Nat) where
  rank : Nat
  outcome : Outcome α n

def Outcome.kind {n : Nat} : Outcome α n → String
  | .determined _ => "compatible determined"
  | .indeterminate _ => "compatible indeterminate"
  | .incompatible => "incompatible"

namespace Solution

variable {n : Nat}

def dependent (s : Solution α n) : Nat :=
  s.rank

def independent (s : Solution α n) : Int :=
  n - s.rank

def solution? (s : Solution α n) : Option (Grid α n 1) :=
  match s.outcome with
  | .determined solution => some solution
  | _ => none

def lines (s : Solution α n) : List (Line α) :=
  match s.outcome with
  | .indeterminate lines => lines
  | _ => []

end Solution

variable [Scalar α] {m n : Nat}

def Term.text (t : Term α) : String :=
  let sign := if t.subtracted then "-" else "+"
  let factor := String.ofList (Display.scalar Display.defaultPlaces t.factor)
  s!" {sign} {factor}*x{t.unknown + 1}"

def Line.text (l : Line α) : String :=
  let constant := String.ofList (Display.scalar Display.defaultPlaces l.constant)
  s!"x{l.unknown + 1} = {constant}" ++ String.join (l.terms.map Term.text)

def zeroRow (g : Grid α m (n + 1)) (i : Fin m) : Bool :=
  (List.finRange n).all fun j => isZero (g.get i j.castSucc)

def lowest (p : Fin m → Bool) : Option (Fin m) :=
  (List.finRange m).reverse.find? p

/-- The rank that a reduced grid shows: the rows down to the last one that does not count as
zero. -/
def rank (g : Grid α m (n + 1)) : Nat :=
  match lowest fun i => !zeroRow g i with
  | some i => i + 1
  | none => 0

theorem rank_le (g : Grid α m (n + 1)) : rank g ≤ m := by
  unfold rank
  split
  · next i _ => exact i.isLt
  · exact Nat.zero_le m

/-- The lowest row below the rank whose constant does not count as zero. -/
def contradiction (g : Grid α m (n + 1)) : Option (Fin m) :=
  lowest fun i => decide (rank g ≤ i) && !isZero (g.get i (Fin.last n))

/-- The first unknown of a row whose coefficient does not count as zero. -/
def leading (g : Grid α m (n + 1)) (i : Fin m) : Nat :=
  (List.finRange n).findIdx fun j => !isZero (g.get i j.castSucc)

/-- A row read as an equation for its leading unknown: the other coefficients change sides. -/
def lineOf (g : Grid α m (n + 1)) (i : Fin m) : Line α where
  unknown := leading g i
  constant := g.get i (Fin.last n)
  terms := (List.finRange n).filterMap fun (j : Fin n) =>
    let coefficient := g.get i j.castSucc
    if leading g i < j ∧ isZero coefficient = false then
      some ⟨decide (0 < coefficient), Scalar.magnitude coefficient, j⟩
    else none

def parametrization (g : Grid α m (n + 1)) : List (Line α) :=
  ((List.finRange m).take (rank g)).map (lineOf g)

def classify (g : Grid α m (n + 1)) : Calculation Fault (Solution α n) :=
  match contradiction g with
  | some i => do
    Calculation.note (.contradiction i (Scalar.text (g.get i (Fin.last n))))
    return ⟨rank g, .incompatible⟩
  | none =>
    if full : rank g = n then do
      Calculation.note (.uniqueSolution (rank g))
      let rowOf (i : Fin n) : Fin m := ⟨i, Nat.lt_of_lt_of_le (full.symm ▸ i.isLt) (rank_le g)⟩
      return ⟨rank g, .determined (Grid.ofFn fun i _ => g.get (rowOf i) (Fin.last n))⟩
    else do
      Calculation.note (.manySolutions (rank g) n)
      return ⟨rank g, .indeterminate (parametrization g)⟩

def solveByReduction (s : LinearSystem α) : Calculation Fault (Solution α s.unknowns) := do
  let reduced ← Calculation.ofExcept s.reduce
  classify reduced.grid

/-- The solution of a system. A square system whose determinant does not count as zero is solved
by the inverse of its coefficients, any other one by reduction. -/
def solve (s : LinearSystem α) : Calculation Fault (Solution α s.unknowns) :=
  if same : s.equations = s.unknowns then do
    let square := s.coefficients.cast same rfl
    if isZero (← square.determinant) then s.solveByReduction
    else
      Calculation.note .invertible
      let inverse ← square.inverse
      return ⟨s.unknowns, .determined (inverse.mul (s.constants.cast same rfl))⟩
  else s.solveByReduction

def solveUniquely (a b : Value α) : Calculation Fault (Value α) := do
  let s ← Calculation.ofExcept (ofValues a b)
  let found ← s.solve
  match found.outcome with
  | .determined solution => return .matrix (DenseMatrix.ofGrid solution)
  | .incompatible => Calculation.fail .incompatible
  | .indeterminate lines =>
    Calculation.fail (.indeterminate (lines.map Line.text) found.dependent found.independent)

end MatrixCalculator.LinearSystem
