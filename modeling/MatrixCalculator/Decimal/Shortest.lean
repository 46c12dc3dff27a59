import MatrixCalculator.Decimal.Fixed

/-! The shortest decimal numbers that determine a double. A finite double is `m · 2 ^ q`; the
reals that round to it form an interval, whose ends belong to it exactly when `m` is even. Of
the decimal numbers with the fewest digits in that interval the nearest one is taken, and of
two equally near ones the one with an even last digit. -/
namespace MatrixCalculator.Decimal

/-- The number `digits · 10 ^ exponent`. -/
structure Number where
  digits : Nat
  exponent : Int
deriving Repr, DecidableEq

def power (base : Nat) (exponent : Int) : Rat :=
  if 0 ≤ exponent then (base.pow exponent.toNat : Rat)
  else mkRat 1 (base.pow (-exponent).toNat)

/-- The reals that round to one positive double. -/
structure Neighbourhood where
  centre : Rat
  lower : Rat
  upper : Rat
  closed : Bool

def subnormalExponent : Int := -1074

/-- The mantissa of a power of two. -/
def leastNormalMantissa : Nat := 0x10000000000000

/-- The neighbourhood of `m · 2 ^ q`. Below a power of two the doubles lie twice as close, so
the lower half of its neighbourhood is half as wide. -/
def Neighbourhood.ofBinary (m : Nat) (q : Int) : Neighbourhood :=
  let unit := power 2 q
  let narrow := m = leastNormalMantissa ∧ subnormalExponent < q
  { centre := m * unit
    lower := (m - if narrow then mkRat 1 4 else mkRat 1 2) * unit
    upper := (m + mkRat 1 2) * unit
    closed := m % 2 = 0 }

def Neighbourhood.holds (range : Neighbourhood) (x : Rat) : Bool :=
  if range.closed then range.lower ≤ x && x ≤ range.upper
  else range.lower < x && x < range.upper

def leadingExponent (x : Rat) : Int :=
  let above := (Nat.toDigits 10 x.num.natAbs).length
  let below := (Nat.toDigits 10 x.den).length
  let guess : Int := above - below
  if power 10 guess ≤ x then guess else guess - 1

/-- The number nearest to the centre among the multiples of `10 ^ exponent` that lie in the
neighbourhood. -/
def onGrid (range : Neighbourhood) (exponent : Int) : Option Number :=
  let unit := power 10 exponent
  let below := (range.centre / unit).floor.toNat
  let gapBelow := range.centre - below * unit
  let gapAbove := (below + 1) * unit - range.centre
  match range.holds (below * unit), range.holds ((below + 1) * unit) with
  | false, false => none
  | true, false => some ⟨below, exponent⟩
  | false, true => some ⟨below + 1, exponent⟩
  | true, true =>
    if gapBelow < gapAbove ∨ (gapBelow = gapAbove ∧ below % 2 = 0) then some ⟨below, exponent⟩
    else some ⟨below + 1, exponent⟩

/-- The most significant digits that a double can need. -/
def longest : Nat := 17

/-- The shortest decimal number that determines `m · 2 ^ q`. -/
def shortest (m : Nat) (q : Int) : Number :=
  let range := Neighbourhood.ofBinary m q
  let lead := leadingExponent range.centre
  let grids := (List.range longest).map fun (count : Nat) => lead - (count : Int)
  (grids.findSome? (onGrid range)).getD ⟨m, q⟩

/-- The text of a positive number: positional with at least one digit after the point when
the leading exponent lies between -4 and 15, and otherwise with an exponent of at least two
digits and no superfluous zeros. -/
def Number.text (x : Number) : List Char :=
  let all := Nat.toDigits 10 x.digits
  let point : Int := all.length + x.exponent
  let digits := (all.reverse.dropWhile (· == '0')).reverse
  if point ≤ 0 ∧ -4 < point then
    '0' :: '.' :: List.replicate (-point).toNat '0' ++ digits
  else if 0 < point ∧ point ≤ 16 then
    let whole := point.toNat
    let fraction := digits.drop whole
    digits.take whole ++ List.replicate (whole - digits.length) '0' ++
      '.' :: (if fraction.isEmpty then ['0'] else fraction)
  else
    let exponent := point - 1
    let sign := if exponent < 0 then '-' else '+'
    let mantissa := match digits with
      | [] => []
      | [digit] => [digit]
      | digit :: rest => digit :: '.' :: rest
    mantissa ++ 'e' :: sign :: padded 2 exponent.natAbs

end MatrixCalculator.Decimal
