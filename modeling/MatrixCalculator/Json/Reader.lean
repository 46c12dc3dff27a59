import MatrixCalculator.Decimal.Literal
import MatrixCalculator.Json
import MatrixCalculator.Parsed

/-! JSON values from text. Blanks may stand around every token and nothing may follow the value.
A key that comes again gives its first field the later value. Besides the numbers of the format
the names of the infinities and of NaN are read. -/
namespace MatrixCalculator.Json

inductive ReadFault
  | malformed
  /-- A whole number with more digits than are converted. -/
  | oversizedInteger
deriving Repr, DecidableEq

def isSpace (c : Char) : Bool :=
  c == ' ' || c == '\t' || c == '\n' || c == '\r'

def skipSpace (cs : List Char) : List Char :=
  cs.dropWhile isSpace

def isDigit (c : Char) : Bool :=
  '0' ≤ c && c ≤ '9'

theorem length_dropWhile_le (p : Char → Bool) (cs : List Char) :
    (cs.dropWhile p).length ≤ cs.length :=
  (List.dropWhile_sublist p).length_le

theorem length_drop_le (count : Nat) (cs : List Char) : (cs.drop count).length ≤ cs.length :=
  (List.drop_sublist count cs).length_le

theorem length_skipSpace_le (cs : List Char) : (skipSpace cs).length ≤ cs.length :=
  length_dropWhile_le isSpace cs

def hexValue? (c : Char) : Option Nat :=
  if isDigit c then some (c.toNat - '0'.toNat)
  else if 'a' ≤ c && c ≤ 'f' then some (c.toNat - 'a'.toNat + 10)
  else if 'A' ≤ c && c ≤ 'F' then some (c.toNat - 'A'.toNat + 10)
  else none

def hexCode? (a b c d : Char) : Option Nat := do
  return 4096 * (← hexValue? a) + 256 * (← hexValue? b) + 16 * (← hexValue? c) + (← hexValue? d)

def unescape? : Char → Option Char
  | '"' => some '"'
  | '\\' => some '\\'
  | '/' => some '/'
  | 'b' => some '\x08'
  | 'f' => some '\x0c'
  | 'n' => some '\n'
  | 'r' => some '\r'
  | 't' => some '\t'
  | _ => none

def pairedChar (high low : Nat) : Char :=
  Char.ofNat (0x10000 + (high - 0xD800) * 0x400 + (low - 0xDC00))

def isHighSurrogate (code : Nat) : Bool :=
  0xD800 ≤ code && code < 0xDC00

def isLowSurrogate (code : Nat) : Bool :=
  0xDC00 ≤ code && code < 0xE000

/-- What a code below `2 ^ 16` stands for when it stands alone. -/
def Point.ofCode (code : Nat) : Point :=
  if isHighSurrogate code || isLowSurrogate code then .half (Fin.ofNat 2048 (code - 0xD800))
  else .char (Char.ofNat code)

def lowHalf? : List Char → Option Nat
  | '\\' :: 'u' :: a :: b :: c :: d :: _ =>
    match hexCode? a b c d with
    | some code => if isLowSurrogate code then some code else none
    | none => none
  | _ => none

/-- What an escape stands for whose backslash has been read. A surrogate without its partner stands
for itself. -/
def readEscape : (input : List Char) → Except ReadFault (Parsed input Point)
  | [] => .error .malformed
  | 'u' :: a :: b :: c :: d :: rest =>
    match hexCode? a b c d with
    | none => .error .malformed
    | some code =>
      match isHighSurrogate code, lowHalf? rest with
      | true, some low =>
        .ok ⟨.char (pairedChar code low), rest.drop 6,
          Nat.lt_of_le_of_lt (length_drop_le 6 rest) (Nat.lt_add_of_pos_right (Nat.succ_pos 4))⟩
      | _, _ => .ok ⟨Point.ofCode code, rest, Nat.lt_add_of_pos_right (Nat.succ_pos 4)⟩
  | mark :: rest =>
    match unescape? mark with
    | none => .error .malformed
    | some character => .ok ⟨.char character, rest, Nat.lt_succ_self _⟩

/-- The positions of a string whose opening quote has been read, up to its closing quote. -/
def readPoints : (input : List Char) → Except ReadFault (Parsed input (List Point))
  | [] => .error .malformed
  | '"' :: rest => .ok ⟨[], rest, Nat.lt_succ_self _⟩
  | '\\' :: rest => do
    let ⟨point, more, fewer⟩ ← readEscape rest
    let ⟨points, left, still⟩ ← readPoints more
    return ⟨point :: points, left, Nat.lt_succ_of_lt (Nat.lt_trans still fewer)⟩
  | c :: rest =>
    if c.toNat < 32 then .error .malformed
    else do
      let ⟨points, left, fewer⟩ ← readPoints rest
      return ⟨.char c :: points, left, Nat.lt_succ_of_lt fewer⟩
termination_by input => input.length
decreasing_by
  · exact Nat.lt_succ_of_lt fewer
  · exact Nat.lt_succ_self _

/-- The digits of a whole number without superfluous zeros at the start of a text. -/
def wholeText : List Char → List Char
  | '0' :: _ => ['0']
  | cs => cs.takeWhile isDigit

def fractionText : List Char → List Char
  | '.' :: rest =>
    let digits := rest.takeWhile isDigit
    if digits.isEmpty then [] else '.' :: digits
  | _ => []

def exponentText : List Char → List Char
  | [] => []
  | mark :: rest =>
    let sign := (rest.take 1).filter fun c => c == '+' || c == '-'
    let digits := (rest.drop sign.length).takeWhile isDigit
    if (mark == 'e' || mark == 'E') && !digits.isEmpty then mark :: (sign ++ digits) else []

def readNumber (input : List Char) : Except ReadFault (Parsed input Json) :=
  let negative := input.head? == some '-'
  let unsigned := if negative then input.drop 1 else input
  let whole := wholeText unsigned
  if inside : whole.length = 0 ∨ input.length = 0 then .error .malformed
  else
    let fraction := fractionText (unsigned.drop whole.length)
    let mantissa := whole ++ fraction
    let exponent := exponentText (unsigned.drop mantissa.length)
    let left := unsigned.drop (mantissa ++ exponent).length
    have fewer : left.length < input.length := by
      simp only [left, mantissa, unsigned, List.length_drop, List.length_append] at inside ⊢
      split
      · simp only [List.length_drop]; omega
      · omega
    if fraction.isEmpty && exponent.isEmpty then
      if Text.digitLimit < whole.length then .error .oversizedInteger
      else
        let size : Int := Text.digitsValue whole
        .ok ⟨.integer (if negative then -size else size), left, fewer⟩
    else
      let size := Decimal.readDouble (mantissa ++ exponent)
      .ok ⟨.double (if negative then -size else size), left, fewer⟩

def words : List (String × Json) :=
  [("null", .null), ("true", .bool true), ("false", .bool false), ("NaN", .double (0 / 0)),
   ("Infinity", .double (1 / 0)), ("-Infinity", .double (-1 / 0))]

/-- A value that is neither a string nor in brackets. -/
def readPlain (input : List Char) : Except ReadFault (Parsed input Json) :=
  match words.find? fun w => w.1.toList.isPrefixOf input with
  | some (word, value) =>
    let left := input.drop word.length
    if fewer : left.length < input.length then .ok ⟨value, left, fewer⟩ else .error .malformed
  | none => readNumber input

mutual

def readValue : (input : List Char) → Except ReadFault (Parsed input Json)
  | '"' :: rest => do
    let points ← readPoints rest
    return (points.map fun s => .string (.ofPoints s)).after (Nat.le_succ _)
  | '[' :: rest =>
    match spaced : skipSpace rest with
    | ']' :: left =>
      .ok ⟨.array [], left, by
        have := length_skipSpace_le rest
        simp only [spaced, List.length_cons] at this ⊢; omega⟩
    | _ => do
      let items ← readItems rest
      return (items.map .array).after (Nat.le_succ _)
  | '{' :: rest =>
    match spaced : skipSpace rest with
    | '}' :: left =>
      .ok ⟨.object [], left, by
        have := length_skipSpace_le rest
        simp only [spaced, List.length_cons] at this ⊢; omega⟩
    | _ => do
      let fields ← readFields [] rest
      return (fields.map .object).after (Nat.le_succ _)
  | input => readPlain input
termination_by input => (input.length, 0)
decreasing_by all_goals exact Prod.Lex.left _ _ (Nat.lt_succ_self _)

def readItems (input : List Char) : Except ReadFault (Parsed input (List Json)) := do
  let ⟨item, more, fewer⟩ ← readValue (skipSpace input)
  match spaced : skipSpace more with
  | ']' :: left =>
    return ⟨[item], left, by
      have := length_skipSpace_le more
      have := length_skipSpace_le input
      simp only [spaced, List.length_cons] at *; omega⟩
  | ',' :: rest =>
    let ⟨items, left, still⟩ ← readItems rest
    return ⟨item :: items, left, by
      have := length_skipSpace_le more
      have := length_skipSpace_le input
      simp only [spaced, List.length_cons] at *; omega⟩
  | _ => .error .malformed
termination_by (input.length, 1)
decreasing_by
  · have := length_skipSpace_le input
    omega
  · have := length_skipSpace_le more
    have := length_skipSpace_le input
    simp only [spaced, List.length_cons] at *
    omega

/-- The fields of an object up to its closing bracket, laid over the fields before them. -/
def readFields (before : Fields) (input : List Char) : Except ReadFault (Parsed input Fields) :=
  match opened : skipSpace input with
  | '"' :: rest => do
    let ⟨key, afterKey, fewer⟩ ← readPoints rest
    match colon : skipSpace afterKey with
    | ':' :: more =>
      let ⟨value, afterValue, less⟩ ← readValue (skipSpace more)
      let fields := put (.ofPoints key) value before
      match closed : skipSpace afterValue with
      | '}' :: left =>
        return ⟨fields, left, by
          have := length_skipSpace_le input
          have := length_skipSpace_le afterKey
          have := length_skipSpace_le more
          have := length_skipSpace_le afterValue
          simp only [opened, colon, closed, List.length_cons] at *; omega⟩
      | ',' :: others =>
        let ⟨all, left, still⟩ ← readFields fields others
        return ⟨all, left, by
          have := length_skipSpace_le input
          have := length_skipSpace_le afterKey
          have := length_skipSpace_le more
          have := length_skipSpace_le afterValue
          simp only [opened, colon, closed, List.length_cons] at *; omega⟩
      | _ => .error .malformed
    | _ => .error .malformed
  | _ => .error .malformed
termination_by (input.length, 1)
decreasing_by
  all_goals
    have := length_skipSpace_le input
    have := length_skipSpace_le afterKey
    have := length_skipSpace_le more
    try have := length_skipSpace_le afterValue
    simp only [opened, colon, List.length_cons] at *
    try simp only [closed, List.length_cons] at *
    omega

end

def read (input : List Char) : Except ReadFault Json := do
  let ⟨value, more, _⟩ ← readValue (skipSpace input)
  if (skipSpace more).isEmpty then return value else .error .malformed

end MatrixCalculator.Json
