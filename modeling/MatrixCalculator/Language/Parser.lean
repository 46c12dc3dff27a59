import MatrixCalculator.Decimal.Literal
import MatrixCalculator.Language.Expr
import MatrixCalculator.Language.Token
import MatrixCalculator.Parsed

/-! Programs from tokens. Binary operators bind by powers: sums weakest, then products, then
powers, which group to the right. Postfix operators bind tighter, and a sign in front of an
operand tightest of all. Every parser returns the tokens that it left, with the proof that they
are fewer, so that parsing ends on every input. -/
namespace MatrixCalculator.Language

def leadingOperator? : Char → Option UnaryOperator
  | '+' => some .plus
  | '-' => some .minus
  | _ => none

def trailingOperator? : Char → Option UnaryOperator
  | '!' => some .factorial
  | '\'' => some .transpose
  | _ => none

def binaryOperator? : Char → Option BinaryOperator
  | '+' => some .add
  | '-' => some .subtract
  | '*' => some .multiply
  | '/' => some .divide
  | '\\' => some .leftDivide
  | '^' => some .power
  | _ => none

/-- How strongly an operator holds its left operand. -/
def BinaryOperator.leftPower : BinaryOperator → Nat
  | .add | .subtract => 10
  | .multiply | .divide | .leftDivide => 20
  | .power => 30

/-- How strongly an operator must be held to belong to the right operand. -/
def BinaryOperator.rightPower : BinaryOperator → Nat
  | .add | .subtract => 11
  | .multiply | .divide | .leftDivide => 21
  | .power => 30

def isSeparator (t : Token) : Bool :=
  t.lexeme == .lineBreak || t.lexeme == .symbol ';'

def expect (stop : Nat) (symbol : Char) :
    (input : List Token) → Except ParseFault (Parsed input Unit)
  | [] => .error ⟨.missing symbol none, stop⟩
  | t :: rest =>
    if t.lexeme = .symbol symbol then .ok ⟨(), rest, Nat.lt_succ_self _⟩
    else .error ⟨.missing symbol (some t.lexeme.text), t.position⟩

mutual

/-- An expression whose operators hold their left operands at least as strongly as `least`. -/
def expression (stop least : Nat) (input : List Token) : Except ParseFault (Parsed input Expr) := do
  let ⟨first, rest, fewer⟩ ← operand stop input
  let ⟨item, left, still⟩ ← extend stop least first rest
  return ⟨item, left, Nat.lt_of_le_of_lt still fewer⟩
termination_by (input.length, 1)

/-- Takes in the operators that follow an operand. -/
def extend (stop least : Nat) (first : Expr) :
    (input : List Token) → Except ParseFault (Continued input Expr)
  | [] => .ok ⟨first, [], Nat.le_refl _⟩
  | t :: rest =>
    match t.lexeme with
    | .symbol c =>
      match trailingOperator? c, binaryOperator? c with
      | some operator, _ => do
        let ⟨item, left, still⟩ ← extend stop least (.unary operator first) rest
        return ⟨item, left, Nat.le_succ_of_le still⟩
      | none, some operator =>
        if operator.leftPower < least then .ok ⟨first, t :: rest, Nat.le_refl _⟩
        else do
          let ⟨second, more, fewer⟩ ← expression stop operator.rightPower rest
          let ⟨item, left, still⟩ ← extend stop least (.binary operator first second) more
          return ⟨item, left, Nat.le_succ_of_le (Nat.le_trans still (Nat.le_of_lt fewer))⟩
      | none, none => .ok ⟨first, t :: rest, Nat.le_refl _⟩
    | _ => .ok ⟨first, t :: rest, Nat.le_refl _⟩
termination_by input => (input.length, 0)
decreasing_by
  all_goals simp_wf
  all_goals (left; omega)

/-- A number, a name, a call, a signed operand, or something in brackets. -/
def operand (stop : Nat) : (input : List Token) → Except ParseFault (Parsed input Expr)
  | [] => .error ⟨.unexpectedEnd, stop⟩
  | t :: rest =>
    match t.lexeme with
    | .number text => .ok ⟨.number (Decimal.readDouble text), rest, Nat.lt_succ_self _⟩
    | .name text =>
      match rest with
      | [] => .ok ⟨.variable (String.ofList text), [], Nat.lt_succ_self _⟩
      | next :: more =>
        if next.lexeme = .symbol '(' then do
          let ⟨arguments, left, fewer⟩ ← callArguments stop more
          return ⟨.call (String.ofList text) arguments, left,
            Nat.lt_succ_of_lt (Nat.lt_succ_of_lt fewer)⟩
        else .ok ⟨.variable (String.ofList text), next :: more, Nat.lt_succ_self _⟩
    | .symbol c =>
      match leadingOperator? c with
      | some operator => do
        let ⟨item, left, fewer⟩ ← operand stop rest
        return ⟨.unary operator item, left, Nat.lt_succ_of_lt fewer⟩
      | none =>
        if c = '(' then do
          let ⟨item, more, fewer⟩ ← expression stop 0 rest
          let ⟨_, left, closed⟩ ← expect stop ')' more
          return ⟨item, left, Nat.lt_succ_of_lt (Nat.lt_trans closed fewer)⟩
        else if c = '[' then do
          let ⟨rows, left, fewer⟩ ← matrixRows stop [] rest
          return ⟨.matrix rows, left, Nat.lt_succ_of_lt fewer⟩
        else .error ⟨.unexpectedToken [c], t.position⟩
    | .lineBreak => .error ⟨.unexpectedLineBreak, t.position⟩
termination_by input => (input.length, 0)
decreasing_by
  all_goals simp_wf
  all_goals (left; omega)

def callArguments (stop : Nat) :
    (input : List Token) → Except ParseFault (Parsed input (List Expr))
  | [] => .error ⟨.unexpectedEnd, stop⟩
  | t :: rest =>
    if t.lexeme = .symbol ')' then .ok ⟨[], rest, Nat.lt_succ_self _⟩
    else do
      let ⟨arguments, more, fewer⟩ ← argumentList stop (t :: rest)
      let ⟨_, left, closed⟩ ← expect stop ')' more
      return ⟨arguments, left, Nat.lt_trans closed fewer⟩
termination_by input => (input.length, 3)
decreasing_by simp_wf; omega

def argumentList (stop : Nat) (input : List Token) :
    Except ParseFault (Parsed input (List Expr)) := do
  let ⟨first, more, fewer⟩ ← expression stop 0 input
  match more, fewer with
  | [], fewer => return ⟨[first], [], fewer⟩
  | t :: rest, fewer =>
    if t.lexeme = .symbol ',' then
      let ⟨others, left, still⟩ ← argumentList stop rest
      return ⟨first :: others, left, Nat.lt_trans still (Nat.lt_of_succ_lt fewer)⟩
    else return ⟨[first], t :: rest, fewer⟩
termination_by (input.length, 2)
decreasing_by
  all_goals first | omega | (left; simp only [List.length_cons] at fewer; omega)

/-- The rest of a matrix literal after `current`, the begun row. Rows end at separators, and
empty rows leave no trace. -/
def matrixRows (stop : Nat) (current : List Expr) :
    (input : List Token) → Except ParseFault (Parsed input (List (List Expr)))
  | [] => .error ⟨.unclosedBracket, stop⟩
  | t :: rest =>
    if t.lexeme = .symbol ']' then
      .ok ⟨if current.isEmpty then [] else [current], rest, Nat.lt_succ_self _⟩
    else if isSeparator t then do
      let ⟨rows, left, fewer⟩ ← matrixRows stop [] rest
      return ⟨if current.isEmpty then rows else current :: rows, left, Nat.lt_succ_of_lt fewer⟩
    else do
      let ⟨element, more, fewer⟩ ← expression stop 0 (t :: rest)
      match more, fewer with
      | [], _ => .error ⟨.unclosedBracket, stop⟩
      | next :: others, fewer =>
        if next.lexeme = .symbol ',' then
          let ⟨rows, left, still⟩ ← matrixRows stop (current ++ [element]) others
          return ⟨rows, left, Nat.lt_trans still (Nat.lt_of_succ_lt fewer)⟩
        else if isSeparator next || next.lexeme == .symbol ']' then
          let ⟨rows, left, still⟩ ← matrixRows stop (current ++ [element]) (next :: others)
          return ⟨rows, left, Nat.lt_trans still fewer⟩
        else .error ⟨.missingSeparator next.lexeme.text, next.position⟩
termination_by input => (input.length, 2)
decreasing_by
  all_goals simp_wf
  all_goals first | omega | (left; simp only [List.length_cons] at fewer; omega)

end

def statement (stop : Nat) : (input : List Token) → Except ParseFault (Parsed input Statement)
  | ⟨.name text, _⟩ :: ⟨.symbol '=', _⟩ :: rest => do
    let ⟨expr, left, fewer⟩ ← expression stop 0 rest
    return ⟨⟨expr, some (String.ofList text)⟩, left,
      Nat.lt_succ_of_lt (Nat.lt_succ_of_lt fewer)⟩
  | input => do
    let ⟨expr, left, fewer⟩ ← expression stop 0 input
    return ⟨⟨expr, none⟩, left, fewer⟩

def statements (stop : Nat) : List Token → Except ParseFault (List Statement)
  | [] => .ok []
  | t :: rest =>
    if isSeparator t then statements stop rest
    else do
      let ⟨first, more, fewer⟩ ← statement stop (t :: rest)
      match more, fewer with
      | [], _ => return [first]
      | next :: others, _ =>
        if isSeparator next then return first :: (← statements stop others)
        else .error ⟨.unexpectedToken next.lexeme.text, next.position⟩
termination_by input => input.length
decreasing_by all_goals simp_all only [List.length_cons]; omega

def parse (source : String) : Except ParseFault (List Statement) := do
  let stream ← tokenize source.toList
  statements stream.stop stream.tokens

/-- A single expression without assignments and separators. -/
def parseExpression (source : String) : Except ParseFault Expr := do
  let stream ← tokenize source.toList
  let ⟨expr, more, _⟩ ← expression stream.stop 0 stream.tokens
  match more with
  | [] => return expr
  | next :: _ => .error ⟨.unexpectedToken next.lexeme.text, next.position⟩

end MatrixCalculator.Language
