import MatrixCalculator.Double
import MatrixCalculator.Value.Arithmetic

/-! Powers and elementary functions of values over doubles. A function of a real argument is a
fault outside its real domain; a NaN passes through. -/
namespace MatrixCalculator.Value

def real (function : ScalarFunction) : Value Float → Except Fault Float
  | scalar x => .ok x
  | matrix _ => .error (.notScalar function)

/-- The power of two scalars. A zero has no negative power, and a negative number only powers
that are whole numbers up to tolerance; these are rounded first. Powers too large for a double
are infinite. -/
def scalarPower (base exponent : Float) : Except Fault Float :=
  if isZero base && exponent < 0 then .error .negativePowerOfZero
  else if base < 0 then
    match Scalar.nearest exponent, isIntegral exponent with
    | some n, true => .ok (Float.pow base (Scalar.ofInt n))
    | _, _ => .error .fractionalPowerOfNegative
  else .ok (Float.pow base exponent)

def power : Value Float → Value Float → Calculation Fault (Value Float)
  | _, matrix _ => Calculation.fail .matrixExponent
  | matrix m, scalar n => return matrix (← m.power n)
  | scalar x, scalar n => return scalar (← Calculation.ofExcept (scalarPower x n))

def magnitude (v : Value Float) : Except Fault (Value Float) := do
  let x ← v.real .magnitude
  return scalar x.abs

def root (v : Value Float) : Except Fault (Value Float) := do
  let x ← v.real .root
  if x < 0 then throw .rootOfNegative
  return scalar x.sqrt

/-- The largest whole number whose factorial is a finite double. -/
def largestFactorial : Float := 170

/-- The product `1 · 2 · … · n`, accumulated from the left. -/
def product (n : Nat) : Float :=
  (List.range n).foldl (fun total i => total * Float.ofNat (i + 1)) 1

def factorial (v : Value Float) : Except Fault (Value Float) := do
  let x ← v.real .factorial
  if x < 0 then throw .factorialOfNegative
  else if x > largestFactorial then return scalar (1 / 0)
  else match Scalar.exact x with
    | none => return scalar x
    | some value => return scalar (product (Rounding.truncated value).toNat)

def ofAngle (function : ScalarFunction) (f : Float → Float) (v : Value Float) :
    Except Fault (Value Float) := do
  let x ← v.real function
  if x.isInf then throw (.infiniteAngle function)
  return scalar (f x)

def sine : Value Float → Except Fault (Value Float) :=
  ofAngle .sine Float.sin

def cosine : Value Float → Except Fault (Value Float) :=
  ofAngle .cosine Float.cos

def tangent : Value Float → Except Fault (Value Float) :=
  ofAngle .tangent Float.tan

/-- The natural logarithm. -/
def logarithm (v : Value Float) : Except Fault (Value Float) := do
  let x ← v.real .logarithm
  if x ≤ 0 then throw .logarithmOfNonpositive
  return scalar x.log

end MatrixCalculator.Value
