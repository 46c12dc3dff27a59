import MatrixCalculator.DenseMatrix

/-! Values: what an expression stands for. A scalar and a `1 × 1` matrix are different values. -/
namespace MatrixCalculator

inductive Value (α : Type)
  | scalar (x : α)
  | matrix (m : DenseMatrix α)

namespace Value

variable {α : Type}

def isScalar : Value α → Bool
  | scalar _ => true
  | matrix _ => false

def isMatrix : Value α → Bool
  | scalar _ => false
  | matrix _ => true

def kind : Value α → String
  | scalar _ => "scalar"
  | matrix _ => "matrix"

def numbers : Value α → List α
  | scalar x => [x]
  | matrix m => m.toList

end Value

end MatrixCalculator
