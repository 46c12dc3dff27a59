import MatrixCalculator.Scalar
import MatrixCalculator.Decimal.Shortest

/-! Doubles and rational numbers as scalars. The exact value of a double is read from its
sign, mantissa and exponent, so that rounding and printing never depend on inexact steps. -/
namespace MatrixCalculator

namespace Double

/-- The rational number that a finite double stands for. -/
def exact (x : Float) : Option Rat :=
  match x.toModel.unpack with
  | .notANumber => none
  | .infinity _ => none
  | .zero _ => some 0
  | .finite sign m q _ => some (sign.apply m * Decimal.power 2 q)

def signed (sign : Float.Model.UnpackedFloat.Sign) (size : List Char) : List Char :=
  match sign with
  | .negative => '-' :: size
  | .positive => size

/-- The shortest text that reads back as the same double. -/
def text (x : Float) : List Char :=
  match x.toModel.unpack with
  | .notANumber => "nan".toList
  | .infinity sign => signed sign "inf".toList
  | .zero sign => signed sign "0.0".toList
  | .finite sign m q _ => signed sign (Decimal.shortest m q).text

end Double

instance : Scalar Float where
  zero := 0
  one := 1
  decideLt := inferInstance
  magnitude := Float.abs
  exact := Double.exact
  ofInt := Float.ofInt
  absoluteTolerance := 1e-12
  relativeTolerance := 1e-10
  leastNormal := Float.ofBits 0x0010000000000000
  text x := String.ofList (Double.text x)

instance : Scalar Rat where
  zero := 0
  one := 1
  decideLt := inferInstance
  magnitude x := if x < 0 then -x else x
  exact x := some x
  ofInt n := n
  absoluteTolerance := mkRat 1 1000000000000
  relativeTolerance := mkRat 1 10000000000
  leastNormal := mkRat 1 (Nat.pow 2 1022)
  text x := toString x

end MatrixCalculator
