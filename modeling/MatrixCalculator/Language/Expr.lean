/-! Expressions and statements of the calculator language. -/
namespace MatrixCalculator.Language

inductive UnaryOperator
  | plus | minus | factorial | transpose
deriving Repr, DecidableEq

inductive BinaryOperator
  | add | subtract | multiply | divide | leftDivide | power
deriving Repr, DecidableEq

inductive Expr
  | number (x : Float)
  | variable (name : String)
  /-- A matrix literal, row by row. -/
  | matrix (rows : List (List Expr))
  | call (function : String) (arguments : List Expr)
  | unary (operator : UnaryOperator) (operand : Expr)
  | binary (operator : BinaryOperator) (left right : Expr)

structure Statement where
  expr : Expr
  /-- The variable that the statement assigns to, if it names one. -/
  target : Option String

/-- The variable that holds the last result which no statement has named. -/
def answerName : String := "ans"

def Statement.name (s : Statement) : String :=
  s.target.getD answerName

def UnaryOperator.symbol : UnaryOperator → Char
  | .plus => '+'
  | .minus => '-'
  | .factorial => '!'
  | .transpose => '\''

def BinaryOperator.symbol : BinaryOperator → Char
  | .add => '+'
  | .subtract => '-'
  | .multiply => '*'
  | .divide => '/'
  | .leftDivide => '\\'
  | .power => '^'

end MatrixCalculator.Language
