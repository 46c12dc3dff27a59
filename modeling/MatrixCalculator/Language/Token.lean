import MatrixCalculator.Text.DecimalDigit

/-! Tokens of the calculator language. A source is cut from the left into the longest numerals
and names, single symbols and line breaks; blanks, tabs and carriage returns only separate. -/
namespace MatrixCalculator.Language

open MatrixCalculator.Text

inductive Lexeme
  | number (text : List Char)
  | name (text : List Char)
  | symbol (c : Char)
  | lineBreak
deriving Repr, DecidableEq

def Lexeme.text : Lexeme → List Char
  | .number text => text
  | .name text => text
  | .symbol c => [c]
  | .lineBreak => ['\n']

/-- A lexeme and the number of characters in front of it. -/
structure Token where
  lexeme : Lexeme
  position : Nat
deriving Repr, DecidableEq

inductive ParseCause
  | unexpectedCharacter (c : Char)
  | unexpectedEnd
  | unexpectedLineBreak
  | unexpectedToken (text : List Char)
  /-- A symbol that is missing in front of a token, or of the end of the input. -/
  | missing (symbol : Char) (found : Option (List Char))
  | unclosedBracket
  | missingSeparator (found : List Char)
deriving Repr, DecidableEq

structure ParseFault where
  cause : ParseCause
  position : Nat
deriving Repr, DecidableEq

def quoted (text : List Char) : String :=
  "'" ++ String.ofList text ++ "'"

def ParseCause.message : ParseCause → String
  | .unexpectedCharacter c => "Unexpected character " ++ quoted [c]
  | .unexpectedEnd => "Unexpected end of input"
  | .unexpectedLineBreak => "Unexpected 'line break'"
  | .unexpectedToken text => "Unexpected " ++ quoted text
  | .missing symbol (some found) =>
    "Expected " ++ quoted [symbol] ++ " but found " ++ quoted found
  | .missing symbol none => "Expected " ++ quoted [symbol] ++ " but found end of input"
  | .unclosedBracket => "Unclosed '['"
  | .missingSeparator found => "Expected ',', ';' or ']' but found " ++ quoted found

/-- A text of a parse fault with its position, which is counted from one. -/
def positioned (text : String) (position : Int) : String :=
  text ++ s!" (at position {position + 1})"

def ParseFault.message (fault : ParseFault) : String :=
  positioned fault.cause.message fault.position

def isGap (c : Char) : Bool :=
  c == ' ' || c == '\t' || c == '\r'

def isNameStart (c : Char) : Bool :=
  c.isAlpha || c == '_'

def isNamePart (c : Char) : Bool :=
  c.isAlphanum || c == '_'

def symbols : List Char :=
  ['-', '+', '*', '/', '\\', '^', '!', '\'', '=', '(', ')', '[', ']', ',', ';']

def isSign (c : Char) : Bool :=
  c == '+' || c == '-'

/-- The digits of a numeral with an optional point, at the start of a text: digits on at least
one side of the point. Empty if there is none. -/
def mantissaText (cs : List Char) : List Char :=
  let whole := cs.takeWhile isDecimalDigit
  match cs.dropWhile isDecimalDigit with
  | '.' :: more =>
    let fraction := more.takeWhile isDecimalDigit
    if whole.isEmpty && fraction.isEmpty then [] else whole ++ '.' :: fraction
  | _ => whole

/-- The exponent part of a numeral at the start of a text. Empty if no digit follows. -/
def exponentText : List Char → List Char
  | [] => []
  | mark :: more =>
    let sign := (more.take 1).filter isSign
    let digits := (more.drop sign.length).takeWhile isDecimalDigit
    if (mark == 'e' || mark == 'E') && !digits.isEmpty then mark :: (sign ++ digits) else []

/-- The longest numeral at the start of a text. Empty if there is none. -/
def numeralText (cs : List Char) : List Char :=
  let mantissa := mantissaText cs
  if mantissa.isEmpty then [] else mantissa ++ exponentText (cs.drop mantissa.length)

/-- The token at the start of a text that begins with `c`. -/
def lexeme? (c : Char) (rest : List Char) : Option Lexeme :=
  let numeral := numeralText (c :: rest)
  if !numeral.isEmpty then some (.number numeral)
  else if isNameStart c then some (.name (c :: rest.takeWhile isNamePart))
  else if c = '\n' then some .lineBreak
  else if c ∈ symbols then some (.symbol c)
  else none

def tokensFrom (position : Nat) : List Char → Except ParseFault (List Token)
  | [] => .ok []
  | c :: rest =>
    if isGap c then tokensFrom (position + 1) rest
    else match lexeme? c rest with
      | none => .error ⟨.unexpectedCharacter c, position⟩
      | some lexeme => do
        let size := lexeme.text.length
        let later ← tokensFrom (position + size) (rest.drop (size - 1))
        return ⟨lexeme, position⟩ :: later
termination_by cs => cs.length
decreasing_by all_goals simp only [List.length_cons, List.length_drop]; omega

structure TokenStream where
  tokens : List Token
  /-- Where the source ends. -/
  stop : Nat
deriving Repr, DecidableEq

def tokenize (source : List Char) : Except ParseFault TokenStream :=
  return ⟨← tokensFrom 0 source, source.length⟩

end MatrixCalculator.Language
