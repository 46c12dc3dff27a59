import MatrixCalculator.Json

/-! The text of JSON values. Every item stands on a line of its own, indented by two blanks for
each level; what is empty is a bare pair of brackets. Only quotes, backslashes, control characters
and halves of surrogate pairs are escaped. A writer that does not escape the halves stops at the
first of them, as they have no form of their own. -/
namespace MatrixCalculator.Json

def hexDigit (n : Nat) : Char :=
  Nat.digitChar (n % 16)

def hexCode (code : Nat) : List Char :=
  [hexDigit (code / 4096), hexDigit (code / 256), hexDigit (code / 16), hexDigit code]

def escaped (c : Char) : List Char :=
  if c = '"' then ['\\', '"']
  else if c = '\\' then ['\\', '\\']
  else if c = '\n' then ['\\', 'n']
  else if c = '\r' then ['\\', 'r']
  else if c = '\t' then ['\\', 't']
  else if c = '\x08' then ['\\', 'b']
  else if c = '\x0c' then ['\\', 'f']
  else if c.toNat < 32 then '\\' :: 'u' :: hexCode c.toNat
  else [c]

def spelled : Point → List Char
  | .char c => escaped c
  | .half offset => '\\' :: 'u' :: hexCode (0xD800 + offset)

def quoted (s : Str) : List Char :=
  '"' :: s.points.flatMap spelled ++ ['"']

def doubleText (x : Float) : List Char :=
  if x.isNaN then "NaN".toList
  else if x.isInf then (if x < 0 then "-Infinity".toList else "Infinity".toList)
  else Double.text x

/-- A line break and the blanks that begin a line at a level. -/
def newLine (level : Nat) : List Char :=
  '\n' :: List.replicate (2 * level) ' '

mutual

/-- A value whose first line is indented already and whose last line stands at `level`. -/
def write (level : Nat) : Json → List Char
  | .null => "null".toList
  | .bool true => "true".toList
  | .bool false => "false".toList
  | .integer n => Decimal.integer n
  | .double x => doubleText x
  | .string s => quoted s
  | .array [] => ['[', ']']
  | .array (item :: items) =>
    '[' :: newLine (level + 1) ++ write (level + 1) item ++ writeItems (level + 1) items ++
      newLine level ++ [']']
  | .object [] => ['{', '}']
  | .object ((key, value) :: fields) =>
    '{' :: newLine (level + 1) ++ quoted key ++ ':' :: ' ' :: write (level + 1) value ++
      writeFields (level + 1) fields ++ newLine level ++ ['}']

/-- The items after the first. -/
def writeItems (level : Nat) : List Json → List Char
  | [] => []
  | item :: items => ',' :: newLine level ++ write level item ++ writeItems level items

/-- The fields after the first. -/
def writeFields (level : Nat) : Fields → List Char
  | [] => []
  | (key, value) :: fields =>
    ',' :: newLine level ++ quoted key ++ ':' :: ' ' :: write level value ++
      writeFields level fields

end

def text (j : Json) : String :=
  String.ofList (write 0 j)

mutual

/-- What has gone out of a value when the first half of a surrogate pair comes, if there is one. A
string goes out at once. -/
def torn (level : Nat) : Json → Option (List Char)
  | .string (.broken _ _) => some []
  | .array items => tornItems (level + 1) ('[' :: newLine (level + 1)) items
  | .object fields => tornFields (level + 1) ('{' :: newLine (level + 1)) fields
  | _ => none

/-- The same of items with what stands in front of the first one, which goes out with it unless it
is in brackets. -/
def tornItems (level : Nat) (opening : List Char) : List Json → Option (List Char)
  | [] => none
  | .string (.broken _ _) :: _ => some []
  | item :: items =>
    match torn level item with
    | some left => some (opening ++ left)
    | none => (tornItems level (',' :: newLine level) items).map (opening ++ write level item ++ ·)

/-- The same of fields with what stands in front of the first one. -/
def tornFields (level : Nat) (opening : List Char) : Fields → Option (List Char)
  | [] => none
  | (.broken _ _, _) :: _ => some opening
  | (key, value) :: fields =>
    let named := opening ++ quoted key ++ [':', ' ']
    match torn level value with
    | some left => some (named ++ left)
    | none => (tornFields level (',' :: newLine level) fields).map (named ++ write level value ++ ·)

end

end MatrixCalculator.Json
