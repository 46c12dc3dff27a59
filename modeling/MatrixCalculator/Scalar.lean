import MatrixCalculator.Rounding

/-! Scalars: the arithmetic that matrices and linear systems are computed in. Every algorithm
is written once over this class, so that it runs on doubles and can be followed in exact
rational arithmetic with the same tolerances and the same choices. -/
namespace MatrixCalculator

class Scalar (α : Type) extends
    Zero α, One α, Add α, Sub α, Neg α, Mul α, Div α, BEq α, LT α where
  decideLt : DecidableLT α
  magnitude : α → α
  /-- The rational number that a finite scalar stands for. -/
  exact : α → Option Rat
  ofInt : Int → α
  /-- How far from an exact zero a number still counts as zero. -/
  absoluteTolerance : α
  /-- How large the gap between two numbers may be, measured against their sizes. -/
  relativeTolerance : α
  /-- Sizes below this one have lost relative accuracy. -/
  leastNormal : α
  /-- The shortest text that determines the scalar. -/
  text : α → String

attribute [instance (10)] Scalar.toZero Scalar.toOne Scalar.toAdd Scalar.toSub Scalar.toNeg
  Scalar.toMul Scalar.toDiv Scalar.toBEq Scalar.toLT

instance (priority := 10) Scalar.decidableLt {α : Type} [Scalar α] : DecidableLT α :=
  Scalar.decideLt

namespace Scalar

variable {α : Type} [Scalar α]

/-- The whole number nearest to a finite scalar, a half going to the even neighbour. -/
def nearest (x : α) : Option Int :=
  (exact x).map Rounding.nearest

def isFinite (x : α) : Bool :=
  (exact x).isSome

end Scalar

end MatrixCalculator
