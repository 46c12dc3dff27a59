/-! What can go wrong in arithmetic on scalars and matrices, and in solving a system. -/
namespace MatrixCalculator

inductive ScalarFunction
  | magnitude | root | factorial | sine | cosine | tangent | logarithm
deriving Repr, DecidableEq

inductive MatrixFunction
  | transpose | determinant
deriving Repr, DecidableEq

inductive SquareOperation
  | power | determinant | inverse
deriving Repr, DecidableEq

inductive SystemDefect
  | coefficientsNotMatrix
  | constantsNotMatrix
  | noUnknowns
  | rowCounts (coefficients constants : Nat)
  | constantColumns (count : Nat)
deriving Repr, DecidableEq

inductive Fault
  | invalidDimensions (rows cols : Int)
  | elementCount (rows cols : Int) (count : Nat)
  | raggedRow (row length expected : Nat)
  | sumShapes (rows cols otherRows otherCols : Nat)
  | productShapes (rows cols otherRows otherCols : Nat)
  | notSquare (operation : SquareOperation)
  | singular
  | fractionalMatrixPower
  | matrixExponent
  | reciprocalOfZero
  | negativePowerOfZero
  | fractionalPowerOfNegative
  | factorialOfNegative
  | rootOfNegative
  | logarithmOfNonpositive
  | infiniteAngle (function : ScalarFunction)
  | mixedSum
  | notScalar (function : ScalarFunction)
  | notMatrix (function : MatrixFunction)
  | notSystem (defect : SystemDefect)
  | incompatible
  /-- A system with many solutions, one line of text for each dependent variable. -/
  | indeterminate (lines : List String) (dependent : Nat) (independent : Int)
  | indexOutOfRange (row col : Int) (rows cols : Nat)
  | zeroDivisor
deriving Repr, DecidableEq

def ScalarFunction.name : ScalarFunction → String
  | .magnitude => "abs"
  | .root => "sqrt"
  | .factorial => "factorial"
  | .sine => "sin"
  | .cosine => "cos"
  | .tangent => "tan"
  | .logarithm => "log"

def ScalarFunction.onlyScalars : ScalarFunction → String
  | .magnitude => "abs() is only defined for real numbers."
  | .root => "sqrt() is only defined for real numbers."
  | .factorial => "The factorial is not defined for matrices."
  | .sine => "The sine is not defined for matrices."
  | .cosine => "The cosine is not defined for matrices."
  | .tangent => "The tangent is not defined for matrices."
  | .logarithm => "The logarithm is not defined for matrices."

def MatrixFunction.onlyMatrices : MatrixFunction → String
  | .transpose => "The transpose is not defined for scalars."
  | .determinant => "The determinant is not defined for scalars."

def SquareOperation.onlySquare : SquareOperation → String
  | .power => "Matrix powers are only defined for square matrices."
  | .determinant => "The determinant is only defined for square matrices."
  | .inverse => "The inverse is only defined for square matrices."

def SystemDefect.message : SystemDefect → String
  | .coefficientsNotMatrix => "A must be a matrix."
  | .constantsNotMatrix => "b must be a matrix."
  | .noUnknowns => "The coefficient matrix A cannot be empty."
  | .rowCounts coefficients constants =>
    s!"A and b must have the same number of rows (got {coefficients} and {constants})."
  | .constantColumns count => s!"b must be a single column (got {count} columns)."

def shapeText (rows cols : Nat) : String :=
  s!"{rows}x{cols}"

/-- The text of the infinitely many solutions: the lines, then the count of variables. -/
def indeterminateText (lines : List String) (dependent : Nat) (independent : Int) : String :=
  let plural := if independent = 1 then "" else "s"
  "The system has no unique solution (compatible indeterminate).\n" ++
    String.intercalate "\n" lines ++
    s!"\n{dependent} dependent and {independent} independent variable{plural}."

def Fault.message : Fault → String
  | .invalidDimensions rows cols => s!"Invalid matrix dimensions {rows}x{cols}."
  | .elementCount rows cols count =>
    s!"A {rows}x{cols} matrix needs {rows * cols} elements, got {count}."
  | .raggedRow row length expected =>
    s!"All rows must have the same number of columns: row {row} has {length}, expected {expected}."
  | .sumShapes rows cols otherRows otherCols =>
    "Matrix addition is only defined for matrices of equal size (got " ++
      shapeText rows cols ++ " and " ++ shapeText otherRows otherCols ++ ")."
  | .productShapes rows cols otherRows otherCols =>
    "Matrix multiplication needs MxN and NxP operands (got " ++
      shapeText rows cols ++ " and " ++ shapeText otherRows otherCols ++ ")."
  | .notSquare operation => operation.onlySquare
  | .singular => "The matrix is singular (its determinant is zero); it has no inverse."
  | .fractionalMatrixPower => "A matrix can only be raised to an integer power."
  | .matrixExponent => "The exponent cannot be a matrix."
  | .reciprocalOfZero => "1/0 is not defined."
  | .negativePowerOfZero => "0 raised to a negative power is not defined."
  | .fractionalPowerOfNegative =>
    "A negative number raised to a fractional power is not a real number."
  | .factorialOfNegative => "Cannot take the factorial of a negative number."
  | .rootOfNegative => "Cannot take the square root of a negative number."
  | .logarithmOfNonpositive => "The logarithm is only defined for positive numbers."
  | .infiniteAngle function => s!"{function.name}() is not defined for infinite values."
  | .mixedSum => "Addition between a matrix and a scalar is not defined."
  | .notScalar function => function.onlyScalars
  | .notMatrix function => function.onlyMatrices
  | .notSystem defect => defect.message
  | .incompatible => "The system is incompatible: it has no solution."
  | .indeterminate lines dependent independent => indeterminateText lines dependent independent
  | .indexOutOfRange row col rows cols =>
    s!"Index ({row}, {col}) out of range for a " ++ shapeText rows cols ++ " matrix."
  | .zeroDivisor => "division by zero"

/-- Whether a fault lies in the input. The others would be a defect of the calculator. -/
def Fault.isUserError : Fault → Bool
  | .indexOutOfRange _ _ _ _ => false
  | .zeroDivisor => false
  | _ => true

end MatrixCalculator
