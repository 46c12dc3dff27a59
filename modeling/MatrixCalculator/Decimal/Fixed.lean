import MatrixCalculator.Rounding

/-! Decimal text with a fixed number of places. The last place is rounded from the exact
value, a half going to the even digit, and a negative number keeps its sign when all of its
printed digits are zero. -/
namespace MatrixCalculator.Decimal

def padded (width n : Nat) : List Char :=
  let digits := Nat.toDigits 10 n
  List.replicate (width - digits.length) '0' ++ digits

/-- How many units of the last of so many places make a whole. -/
def scaling (places : Nat) : Nat :=
  Nat.pow 10 places

/-- The number `n / 10 ^ places` as text. -/
def pointed (places n : Nat) : List Char :=
  if places = 0 then Nat.toDigits 10 n
  else Nat.toDigits 10 (n / scaling places) ++ '.' :: padded places (n % scaling places)

def fixed (places : Nat) (x : Rat) : List Char :=
  let size := pointed places (Rounding.quotient (x.num.natAbs * scaling places) x.den)
  if x.num < 0 then '-' :: size else size

def integer (n : Int) : List Char :=
  if n < 0 then '-' :: Nat.toDigits 10 n.natAbs else Nat.toDigits 10 n.natAbs

end MatrixCalculator.Decimal
