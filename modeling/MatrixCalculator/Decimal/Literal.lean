import MatrixCalculator.Text.DecimalDigit

/-! Decimal literals: a row of digits with an optional fraction and an optional exponent. The
double that a literal denotes is the one nearest to its exact value. -/
namespace MatrixCalculator.Decimal

open MatrixCalculator.Text

def exponentValue : List Char → Int
  | _ :: '-' :: digits => -(digitsValue digits : Int)
  | _ :: '+' :: digits => digitsValue digits
  | _ :: digits => digitsValue digits
  | [] => 0

/-- The double nearest to `digits · 10 ^ exponent`. -/
def nearestDouble (digits : Nat) (exponent : Int) : Float :=
  Float.ofScientific digits (exponent < 0) exponent.natAbs

def readDouble (literal : List Char) : Float :=
  let whole := literal.takeWhile isDecimalDigit
  let (fraction, rest) := match literal.dropWhile isDecimalDigit with
    | '.' :: more => (more.takeWhile isDecimalDigit, more.dropWhile isDecimalDigit)
    | more => ([], more)
  nearestDouble (digitsValue (whole ++ fraction)) (exponentValue rest - fraction.length)

end MatrixCalculator.Decimal
