import MatrixCalculator.Value

/-! The arithmetic of values. Scalars and matrices are never converted into one another: a scalar
scales a matrix, and every other mixture is a fault. -/
namespace MatrixCalculator.Value

variable {α : Type} [Scalar α]

def add : Value α → Value α → Except Fault (Value α)
  | scalar x, scalar y => .ok (scalar (x + y))
  | matrix a, matrix b => return matrix (← a.add b)
  | _, _ => .error .mixedSum

def negate : Value α → Value α
  | scalar x => scalar (-x)
  | matrix m => matrix (m.scale (-1))

def subtract (left right : Value α) : Except Fault (Value α) :=
  left.add right.negate

def multiply : Value α → Value α → Except Fault (Value α)
  | scalar x, scalar y => .ok (scalar (x * y))
  | matrix a, matrix b => return matrix (← a.mul b)
  | scalar x, matrix b => .ok (matrix (b.scale x))
  | matrix a, scalar y => .ok (matrix (a.scale y))

def inverse : Value α → Calculation Fault (Value α)
  | scalar x =>
    if isZero x then Calculation.fail .reciprocalOfZero
    else do
      let d ← Calculation.ofExcept (Grid.divisor x)
      return scalar (1 / d)
  | matrix m => return matrix (← m.inverse)

/-- The product with the inverse of the right operand. -/
def divide (left right : Value α) : Calculation Fault (Value α) := do
  let inverted ← right.inverse
  Calculation.ofExcept (left.multiply inverted)

/-- The product of the inverse of the left operand with the right one: what solves
`left · x = right`. -/
def leftDivide (left right : Value α) : Calculation Fault (Value α) := do
  let inverted ← left.inverse
  Calculation.ofExcept (inverted.multiply right)

def transpose : Value α → Except Fault (Value α)
  | scalar _ => .error (.notMatrix .transpose)
  | matrix m => .ok (matrix m.transpose)

def determinant : Value α → Calculation Fault (Value α)
  | scalar _ => Calculation.fail (.notMatrix .determinant)
  | matrix m => return scalar (← m.determinant)

end MatrixCalculator.Value
