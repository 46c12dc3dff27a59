import MatrixCalculator.Language.Expr
import MatrixCalculator.LinearSystem.Solution
import MatrixCalculator.Session.Environment
import MatrixCalculator.Value.Elementary

/-! Evaluation of expressions in an environment. Operands and arguments are evaluated from left
to right, and the first fault ends the evaluation. -/
namespace MatrixCalculator

open MatrixCalculator.Language

inductive EvaluationFault
  | undefinedVariable (name : String)
  | undefinedFunction (name : String)
  | wrongArity (name : String) (arity : Nat)
  | raggedLiteral
  | nestedMatrix
  | arithmetic (fault : Fault)
deriving Repr, DecidableEq

def EvaluationFault.message : EvaluationFault → String
  | .undefinedVariable name => "The variable \"" ++ name ++ "\" is not defined."
  | .undefinedFunction name => "The function " ++ name ++ "() is not defined."
  | .wrongArity name arity =>
    let noun := if arity = 1 then "argument" else "arguments"
    "The function " ++ name ++ s!"() takes {arity} {noun}."
  | .raggedLiteral => "Malformed matrix: every row must have the same number of columns."
  | .nestedMatrix => "A matrix cannot be declared inside another matrix."
  | .arithmetic fault => fault.message

inductive Builtin
  | unary (run : Value Float → Calculation Fault (Value Float))
  | binary (run : Value Float → Value Float → Calculation Fault (Value Float))

def Builtin.arity : Builtin → Nat
  | .unary _ => 1
  | .binary _ => 2

def builtin? (name : String) : Option Builtin :=
  let pureUnary (f : Value Float → Except Fault (Value Float)) : Builtin :=
    .unary fun v => Calculation.ofExcept (f v)
  match name with
  | "abs" => some (pureUnary Value.magnitude)
  | "sqrt" => some (pureUnary Value.root)
  | "pow" => some (.binary Value.power)
  | "inv" => some (.unary Value.inverse)
  | "factorial" => some (pureUnary Value.factorial)
  | "sin" => some (pureUnary Value.sine)
  | "cos" => some (pureUnary Value.cosine)
  | "tan" => some (pureUnary Value.tangent)
  | "log" => some (pureUnary Value.logarithm)
  | "transpose" => some (pureUnary Value.transpose)
  | "det" => some (.unary Value.determinant)
  | "linsolve" => some (.binary LinearSystem.solveUniquely)
  | _ => none

def applyUnary : UnaryOperator → Value Float → Calculation Fault (Value Float)
  | .plus, v => pure v
  | .minus, v => pure v.negate
  | .factorial, v => Calculation.ofExcept v.factorial
  | .transpose, v => Calculation.ofExcept v.transpose

def applyBinary : BinaryOperator → Value Float → Value Float → Calculation Fault (Value Float)
  | .add, v, w => Calculation.ofExcept (v.add w)
  | .subtract, v, w => Calculation.ofExcept (v.subtract w)
  | .multiply, v, w => Calculation.ofExcept (v.multiply w)
  | .divide, v, w => v.divide w
  | .leftDivide, v, w => v.leftDivide w
  | .power, v, w => v.power w

def lift {β : Type} (c : Calculation Fault β) : Calculation EvaluationFault β :=
  c.mapError .arithmetic

def cell : Value Float → Calculation EvaluationFault Float
  | .scalar x => pure x
  | .matrix _ => Calculation.fail .nestedMatrix

def applyBuiltin (name : String) : Builtin → List (Value Float) →
    Calculation EvaluationFault (Value Float)
  | .unary run, [x] => lift (run x)
  | .binary run, [x, y] => lift (run x y)
  | function, _ => Calculation.fail (.wrongArity name function.arity)

mutual

def evaluate (env : Environment) : Expr → Calculation EvaluationFault (Value Float)
  | .number x => pure (.scalar x)
  | .variable name =>
    match env.lookup name with
    | some value => pure value
    | none => Calculation.fail (.undefinedVariable name)
  | .matrix rows => do
    let width := (rows.head?.map List.length).getD 0
    let cells ← evaluateRows env width rows
    let matrix ← lift (Calculation.ofExcept (DenseMatrix.ofRows cells))
    return .matrix matrix
  | .call name arguments =>
    match builtin? name with
    | none => Calculation.fail (.undefinedFunction name)
    | some function =>
      if arguments.length = function.arity then do
        let values ← evaluateAll env arguments
        applyBuiltin name function values
      else Calculation.fail (.wrongArity name function.arity)
  | .unary operator operand => do
    let value ← evaluate env operand
    lift (applyUnary operator value)
  | .binary operator left right => do
    let first ← evaluate env left
    let second ← evaluate env right
    lift (applyBinary operator first second)

def evaluateAll (env : Environment) :
    List Expr → Calculation EvaluationFault (List (Value Float))
  | [] => pure []
  | e :: rest => do
    let value ← evaluate env e
    let values ← evaluateAll env rest
    return value :: values

def evaluateRow (env : Environment) : List Expr → Calculation EvaluationFault (List Float)
  | [] => pure []
  | e :: rest => do
    let value ← evaluate env e
    let x ← cell value
    let cells ← evaluateRow env rest
    return x :: cells

/-- The rows of a matrix literal. The width of a row is checked before its cells are evaluated. -/
def evaluateRows (env : Environment) (width : Nat) :
    List (List Expr) → Calculation EvaluationFault (List (List Float))
  | [] => pure []
  | row :: rest =>
    if row.length = width then do
      let cells ← evaluateRow env row
      let rows ← evaluateRows env width rest
      return cells :: rows
    else Calculation.fail .raggedLiteral

end

end MatrixCalculator
