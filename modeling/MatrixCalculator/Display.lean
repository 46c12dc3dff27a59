import MatrixCalculator.Decimal.Fixed
import MatrixCalculator.Value

/-! The text of values. A number reads like a whole number whenever it is one up to tolerance,
and otherwise it has a fixed number of places. A matrix is a table of right-justified columns. -/
namespace MatrixCalculator.Display

variable {α : Type} [Scalar α]

def defaultPlaces : Nat := 4

/-- The blanks in front of the widest cell of a column. -/
def columnGap : Nat := 3

/-- Whether the text of a number depends on the number of places. -/
def isFractional (x : α) : Bool :=
  Scalar.isFinite x && !isZero x && !isIntegral x

/-- The text that the format describes, which has no upper limit for the places. That an interpreter
formats no number with more than `largestPrecision` of them is its own limit and left out here. -/
def scalar (places : Nat) (x : α) : List Char :=
  if isZero x then ['0']
  else match Scalar.exact x with
    | none => (Scalar.text x).toList
    | some value =>
      let whole := Rounding.nearest value
      if nearlyEqual x (Scalar.ofInt whole) then Decimal.integer whole
      else Decimal.fixed places value

def columnWidth {m n : Nat} (cells : Grid (List Char) m n) (j : Fin n) : Nat :=
  ((cells.column j).map List.length).foldl max 0

def justified (width : Nat) (cell : List Char) : List Char :=
  List.replicate (columnGap + width - cell.length) ' ' ++ cell

def line {m n : Nat} (cells : Grid (List Char) m n) (i : Fin m) : List Char :=
  (List.finRange n).flatMap fun j => justified (columnWidth cells j) (cells.get i j)

def table {m n : Nat} (cells : Grid (List Char) m n) : List Char :=
  '\n' :: '\n' :: ['\n'].intercalate ((List.finRange m).map (line cells)) ++ ['\n']

/-- An empty matrix is a pair of brackets and a matrix of one cell reads like that cell. -/
def matrix (places : Nat) (m : DenseMatrix α) : List Char :=
  if m.isEmpty then ['[', ']']
  else match m.toList with
    | [x] => scalar places x
    | _ => table (m.grid.map (scalar places))

def value (places : Nat) : Value α → String
  | .scalar x => String.ofList (scalar places x)
  | .matrix m => String.ofList (matrix places m)

/-- The largest number of places with which an interpreter formats a number. -/
def largestPrecision : Int := 2147483647

def isUsable (precision : Int) : Bool :=
  0 ≤ precision && precision ≤ largestPrecision

/-- The text with a precision that may be unusable. There is then no text as soon as a fractional
number needs its places: a negative precision has none by the format, and one above
`largestPrecision` has none in an interpreter, which refuses it. -/
def value? (precision : Int) (v : Value α) : Option String :=
  if !isUsable precision && v.numbers.any isFractional then none
  else some (value precision.toNat v)

/-- A matrix as the call that rebuilds it, with numbers that read back exactly. -/
def rebuilding (m : DenseMatrix α) : String :=
  let row (cells : List α) := "[" ++ String.intercalate ", " (cells.map Scalar.text) ++ "]"
  "Matrix.from_rows([" ++ String.intercalate ", " (m.toRows.map row) ++ "])"

end MatrixCalculator.Display
