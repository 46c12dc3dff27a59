import MatrixCalculator.Proofs.Language.Cursor

/-! Recursive descent with a cursor: procedures that call each other, and loops that go on until they
meet what ends them. Each procedure is told how many procedures it has been entered within, and how
many calls and rounds of loops may still come within each other. -/
namespace MatrixCalculator.Language

/-- The rows of a matrix literal that are complete, and the begun one. -/
structure Rows where
  complete : List (List Expr)
  begun : List Expr

namespace Rows

/-- The rows where the begun one ends; an empty one leaves no trace. -/
def all (rows : Rows) : List (List Expr) :=
  if rows.begun.isEmpty then rows.complete else rows.complete ++ [rows.begun]

def broken (rows : Rows) : Rows :=
  ⟨rows.all, []⟩

def add (rows : Rows) (element : Expr) : Rows :=
  ⟨rows.complete, rows.begun ++ [element]⟩

end Rows

namespace Descent

def postfixPower : Nat :=
  40

def signPower : Nat :=
  50

variable (tape : Tape)

def refuseNext {β : Type} (cause : List Char → ParseCause) : Descent β := do
  let item ← peek tape 0
  refuse (cause ((item.lexeme.map Lexeme.text).getD [])) item.position

/-- What follows an element of a matrix literal: a comma, which is passed, or what ends it. -/
def elementEnd (rows : Rows) : Descent (Bool × Rows) := do
  if ← seesSymbol tape ',' then
    let _ ← advance tape
    return (false, rows)
  else if ← seesSeparator tape <||> seesSymbol tape ']' <||> seesEnd tape then return (false, rows)
  else refuseNext tape .missingSeparator

/-- One round of the loop in a matrix literal, and whether it has come to the closing bracket. -/
def matrixRound (element : Descent Expr) (rows : Rows) : Descent (Bool × Rows) := do
  let item ← peek tape 0
  if item.lexeme = some (.symbol ']') then
    let _ ← advance tape
    return (true, rows)
  else if item.lexeme = none then refuse .unclosedBracket item.position
  else if ← seesSeparator tape then
    let _ ← advance tape
    return (false, rows.broken)
  else
    let next ← element
    elementEnd tape (rows.add next)

def afterName (called : Descent Expr) (name : String) : Descent Expr := do
  if ← seesSymbol tape '(' then called
  else return .variable name

def afterSymbol (signed inner literal : Descent Expr) (symbol : Char) (position : Nat) :
    Descent Expr :=
  match leadingOperator? symbol with
  | some operator => do
    let item ← signed
    return .unary operator item
  | none =>
    if symbol = '(' then do
      let item ← inner
      let _ ← takeSymbol tape ')'
      return item
    else if symbol = '[' then literal
    else refuse (.unexpectedToken [symbol]) position

def callArguments (arguments : Descent (List Expr)) : Descent (List Expr) := do
  if ← seesSymbol tape ')' then return []
  else arguments

mutual

def expression (fuel depth least : Nat) : Descent Expr :=
  match fuel with
  | 0 => unfinished
  | fuel + 1 => do
    enter depth
    let first ← operand fuel (depth + 1)
    extend fuel depth least first
termination_by structural fuel

/-- Takes in the operators that follow an operand, one in each round of the loop. -/
def extend (fuel depth least : Nat) (first : Expr) : Descent Expr :=
  match fuel with
  | 0 => unfinished
  | fuel + 1 => do
    let item ← peek tape 0
    match item.lexeme with
    | some (.symbol c) =>
      match trailingOperator? c, binaryOperator? c with
      | some operator, _ =>
        if postfixPower < least then return first
        else
          let _ ← advance tape
          extend fuel depth least (.unary operator first)
      | none, some operator =>
        if operator.leftPower < least then return first
        else
          let _ ← advance tape
          let second ← expression fuel (depth + 1) operator.rightPower
          extend fuel depth least (.binary operator first second)
      | none, none => return first
    | _ => return first
termination_by structural fuel

def operand (fuel depth : Nat) : Descent Expr :=
  match fuel with
  | 0 => unfinished
  | fuel + 1 => do
    enter depth
    let item ← advance tape
    match item.lexeme with
    | some (.number text) => return .number (Decimal.readDouble text)
    | some (.name text) =>
      afterName tape (call fuel (depth + 1) (String.ofList text)) (String.ofList text)
    | some (.symbol c) =>
      afterSymbol tape (expression fuel (depth + 1) signPower) (expression fuel (depth + 1) 0)
        (matrix fuel (depth + 1)) c item.position
    | some .lineBreak => refuse .unexpectedLineBreak item.position
    | none => refuse .unexpectedEnd item.position
termination_by structural fuel

def call (fuel depth : Nat) (name : String) : Descent Expr :=
  match fuel with
  | 0 => unfinished
  | fuel + 1 => do
    enter depth
    let _ ← takeSymbol tape '('
    let arguments ← callArguments tape (do
      let first ← expression fuel (depth + 1) 0
      moreArguments fuel depth [first])
    let _ ← takeSymbol tape ')'
    return .call name arguments
termination_by structural fuel

/-- The arguments behind those that have been read, one in each round of the loop. -/
def moreArguments (fuel depth : Nat) (before : List Expr) : Descent (List Expr) :=
  match fuel with
  | 0 => unfinished
  | fuel + 1 => do
    if ← seesSymbol tape ',' then
      let _ ← advance tape
      let next ← expression fuel (depth + 1) 0
      moreArguments fuel depth (before ++ [next])
    else return before
termination_by structural fuel

def matrix (fuel depth : Nat) : Descent Expr :=
  match fuel with
  | 0 => unfinished
  | fuel + 1 => do
    enter depth
    let rows ← matrixRows fuel depth ⟨[], []⟩
    return .matrix rows
termination_by structural fuel

def matrixRows (fuel depth : Nat) (rows : Rows) : Descent (List (List Expr)) :=
  match fuel with
  | 0 => unfinished
  | fuel + 1 => do
    let (closed, rows) ← matrixRound tape (expression fuel (depth + 1) 0) rows
    if closed then return rows.all else matrixRows fuel depth rows
termination_by structural fuel

end

def statement (fuel depth : Nat) : Descent Statement := do
  enter depth
  let item ← peek tape 0
  let next ← peek tape 1
  match item.lexeme, next.lexeme with
  | some (.name text), some (.symbol '=') =>
    let _ ← advance tape
    let _ ← advance tape
    let expr ← expression tape fuel (depth + 1) 0
    return ⟨expr, some (String.ofList text)⟩
  | _, _ =>
    let expr ← expression tape fuel (depth + 1) 0
    return ⟨expr, none⟩

/-- What follows a statement: what ends it, which is not passed. -/
def statementEnd (all : List Statement) : Descent (List Statement) := do
  if ← seesSeparator tape <||> seesEnd tape then return all
  else refuseNext tape .unexpectedToken

def programRound (fuel depth : Nat) (before : List Statement) : Descent (List Statement) := do
  if ← seesSeparator tape then
    let _ ← advance tape
    return before
  else
    let item ← statement tape fuel (depth + 1)
    statementEnd tape (before ++ [item])

def programRounds (fuel depth : Nat) (before : List Statement) : Descent (List Statement) :=
  match fuel with
  | 0 => unfinished
  | fuel + 1 => do
    if ← seesEnd tape then return before
    else
      let before ← programRound tape fuel depth before
      programRounds fuel depth before

def program (fuel depth : Nat) : Descent (List Statement) := do
  enter depth
  programRounds tape fuel depth []

def singleExpression (fuel depth : Nat) : Descent Expr := do
  let expr ← expression tape fuel depth 0
  let item ← peek tape 0
  match item.lexeme with
  | none => return expr
  | some lexeme => refuse (.unexpectedToken lexeme.text) item.position

end Descent

end MatrixCalculator.Language
