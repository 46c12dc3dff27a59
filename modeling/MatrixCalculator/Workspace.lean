import MatrixCalculator.Display

/-! Workspaces: matrices under names, and the instructions that create, change and question them.
An instruction that fails leaves the workspace as it was. -/
namespace MatrixCalculator

namespace Workspace

inductive Creation (α : Type)
  | shaped (rows cols : Int) (data : Option (List α))
  | identity (n : Int)
  | scalar (x : α)
  | rows (rows : List (List α))
  | copy (source : String)
  | transpose (source : String)
  | inverse (source : String)
  | sum (left right : String)
  | product (left right : String)
  | scaled (source : String) (factor : α)
  | power (source : String) (exponent : α)

inductive Change (α : Type)
  | set (i j : Int) (x : α)
  | swapRows (i j : Int)
  | scaleRow (i : Int) (factor : α)
  | addRow (target source : Int) (factor : α)

inductive Question
  | determinant
  | cell (i j : Int)
  | pivotRow (col start : Int)
  | equal (other : String)
  | approxEqual (other : String)
  | shape
  | entries
  | rows
  | rebuilding
  | text

inductive Instruction (α : Type)
  | create (name : String) (creation : Creation α)
  | change (name : String) (change : Change α)
  | ask (name : String) (question : Question)

inductive Reply (α : Type)
  | matrix (m : DenseMatrix α)
  | number (x : α)
  | row (i : Nat)
  | equality (same : Bool)
  | closeness (close : Bool)
  | shape (m : DenseMatrix α) (square empty number identity : Bool)
  | entries (cells : List (Nat × Nat × α))
  | rows (rows : List (List α))
  | text (s : String)

inductive Mishap
  | unknownName (name : String)
  | matrix (fault : Fault)
deriving Repr, DecidableEq

/-- A matrix whose cells have marks. A cell that is copied or moved keeps its mark, and a cell
that is given a new number gets a mark of its own. -/
structure Marked (α : Type) where
  matrix : DenseMatrix α
  mark : Nat → Nat → Nat

/-- Whether two matrices of one shape agree in every cell, by its mark or as a number. A number
that differs from itself thus agrees with its copies. -/
def Marked.agrees {α : Type} [BEq α] (a b : Marked α) : Bool :=
  a.matrix.rows == b.matrix.rows && a.matrix.cols == b.matrix.cols &&
    (a.matrix.grid.entries.zip b.matrix.toList).all fun ((i, j, x), y) =>
      a.mark i j == b.mark i j || x == y

end Workspace

open Workspace in
structure Workspace (α : Type) where
  matrices : List (String × Marked α)
  /-- The first of the marks that no cell has. -/
  fresh : Nat

namespace Workspace

variable {α : Type}

def empty : Workspace α := ⟨[], 0⟩

def find (w : Workspace α) (name : String) : Except Mishap (Marked α) :=
  match w.matrices.lookup name with
  | some found => .ok found
  | none => .error (.unknownName name)

def matrix (w : Workspace α) (name : String) : Except Mishap (DenseMatrix α) :=
  return (← w.find name).matrix

/-- Puts a matrix under a name. As many fresh marks count as used as the matrix has cells. -/
def store (w : Workspace α) (name : String) (entry : Marked α) : Workspace α :=
  ⟨(name, entry) :: w.matrices.filter (·.1 != name),
    w.fresh + entry.matrix.rows * entry.matrix.cols⟩

def freshMark (w : Workspace α) (cols i j : Nat) : Nat :=
  w.fresh + i * cols + j

def computed (w : Workspace α) (m : DenseMatrix α) : Marked α :=
  ⟨m, w.freshMark m.cols⟩

def checked {β : Type} (outcome : Except Fault β) : Except Mishap β :=
  outcome.mapError .matrix

variable [Scalar α]

def create (w : Workspace α) : Creation α → Except Mishap (Marked α)
  | .shaped rows cols data => return w.computed (← checked (DenseMatrix.new rows cols data))
  | .identity n => return w.computed (← checked (DenseMatrix.identity n))
  | .scalar x => return w.computed (DenseMatrix.ofScalar x)
  | .rows rows => return w.computed (← checked (DenseMatrix.ofRows rows))
  | .copy source => w.find source
  | .transpose source => do
    let found ← w.find source
    return ⟨found.matrix.transpose, fun i j => found.mark j i⟩
  | .inverse source => return w.computed (← checked (← w.matrix source).inverse.outcome)
  | .sum left right =>
    return w.computed (← checked ((← w.matrix left).add (← w.matrix right)))
  | .product left right =>
    return w.computed (← checked ((← w.matrix left).mul (← w.matrix right)))
  | .scaled source factor => return w.computed ((← w.matrix source).scale factor)
  | .power source exponent =>
    return w.computed (← checked ((← w.matrix source).power exponent).outcome)

def changed (m : DenseMatrix α) : Change α → Except Fault (DenseMatrix α)
  | .set i j x => m.set i j x
  | .swapRows i j => m.swapRows i j
  | .scaleRow i factor => m.scaleRow i factor
  | .addRow target source factor => m.addRow target source factor

/-- The marks after a change: what it computes is marked afresh. -/
def marksAfter (w : Workspace α) (subject : Marked α) (change : Change α) (i j : Nat) : Nat :=
  let renewed := w.freshMark subject.matrix.cols i j
  let kept := subject.mark i j
  match change with
  | .set row col _ => if row = i ∧ col = j then renewed else kept
  | .swapRows row other =>
    if row = i then subject.mark other.toNat j
    else if other = i then subject.mark row.toNat j
    else kept
  | .scaleRow row _ => if row = i then renewed else kept
  | .addRow target _ _ => if target = i then renewed else kept

def answer (w : Workspace α) (subject : Marked α) : Question → Except Mishap (Reply α)
  | .determinant => return .number (← checked subject.matrix.determinant.outcome)
  | .cell i j => return .number (← checked (subject.matrix.get i j))
  | .pivotRow col start => return .row (← checked (subject.matrix.pivotRow col start))
  | .equal other => return .equality (subject.agrees (← w.find other))
  | .approxEqual other => return .closeness (subject.matrix.approxEqual (← w.matrix other))
  | .shape =>
    let m := subject.matrix
    return .shape m m.isSquare m.isEmpty m.isNumber m.isIdentity
  | .entries =>
    return .entries (subject.matrix.grid.entries.map fun (i, j, x) => (i.val, j.val, x))
  | .rows => return .rows subject.matrix.toRows
  | .rebuilding => return .text (Display.rebuilding subject.matrix)
  | .text => return .text (Display.value Display.defaultPlaces (.matrix subject.matrix))

def attempt (w : Workspace α) : Instruction α → Except Mishap (Workspace α × Reply α)
  | .create name creation => do
    let made ← w.create creation
    return (w.store name made, .matrix made.matrix)
  | .change name change => do
    let subject ← w.find name
    let result ← checked (changed subject.matrix change)
    return (w.store name ⟨result, w.marksAfter subject change⟩, .matrix result)
  | .ask name question => do
    return (w, ← w.answer (← w.find name) question)

def perform (w : Workspace α) (instruction : Instruction α) :
    Workspace α × Except Mishap (Reply α) :=
  match w.attempt instruction with
  | .ok (next, reply) => (next, .ok reply)
  | .error fault => (w, .error fault)

def performAll (w : Workspace α) :
    List (Instruction α) → List (Except Mishap (Reply α))
  | [] => []
  | instruction :: rest =>
    let (next, reply) := w.perform instruction
    reply :: next.performAll rest

end Workspace

end MatrixCalculator
