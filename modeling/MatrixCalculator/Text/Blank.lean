/-! Blank characters: the horizontal and vertical white space that is dropped at the two ends
of a line of input. -/
namespace MatrixCalculator.Text

def isBlank (c : Char) : Bool :=
  let code := c.toNat
  (0x09 ≤ code && code ≤ 0x0D) || (0x1C ≤ code && code ≤ 0x20) || code == 0x85 || code == 0xA0 ||
    code == 0x1680 || (0x2000 ≤ code && code ≤ 0x200A) || code == 0x2028 || code == 0x2029 ||
    code == 0x202F || code == 0x205F || code == 0x3000

/-- The blanks that may stand around a whole number: all but the four information separators. -/
def isNumberMargin (c : Char) : Bool :=
  isBlank c && !(0x1C ≤ c.toNat && c.toNat ≤ 0x1F)

def trimBy (drop : Char → Bool) (text : List Char) : List Char :=
  ((text.dropWhile drop).reverse.dropWhile drop).reverse

def trim (text : String) : String :=
  String.ofList (trimBy isBlank text.toList)

def trimLineBreaks (text : String) : String :=
  String.ofList (trimBy (· == '\n') text.toList)

end MatrixCalculator.Text
