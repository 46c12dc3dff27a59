import MatrixCalculator.Proofs.Language.Extension
import MatrixCalculator.Proofs.Language.Lexing

/-! Reading with a cursor. Tokens stand on a tape with a mark at its end, and all that moves is an
index. A look is held back at the last item of the tape, and an end mark is not passed. Each look,
each move and each entry into a procedure is a step, and the cursor remembers how deep procedures have
been entered within each other. That a reading ends is not built in: one that runs out of fuel has
no result. -/
namespace MatrixCalculator.Language

/-- A token, or an end mark, which has no lexeme. -/
structure Item where
  lexeme : Option Lexeme
  position : Nat
deriving Repr, DecidableEq

def Item.ofToken (t : Token) : Item :=
  ⟨some t.lexeme, t.position⟩

/-- Items of which the last one is an end mark. End marks may also stand between the others. -/
structure Tape where
  items : List Item
  ends : ∃ position, items.getLast? = some ⟨none, position⟩

def TokenStream.tape (stream : TokenStream) : Tape where
  items := stream.tokens.map Item.ofToken ++ [⟨none, stream.stop⟩]
  ends := ⟨stream.stop, by simp⟩

structure Cursor where
  index : Nat
  steps : Nat
  /-- How many procedures have been entered within each other at the most. -/
  deepest : Nat
deriving Repr

namespace Cursor

def start : Cursor :=
  ⟨0, 0, 0⟩

def looked (c : Cursor) : Cursor :=
  { c with steps := c.steps + 1 }

def moved (c : Cursor) : Cursor :=
  { c with index := c.index + 1, steps := c.steps + 1 }

def entered (depth : Nat) (c : Cursor) : Cursor :=
  { c with steps := c.steps + 1, deepest := max c.deepest depth }

/-- What is left of twelve steps for each item that has been passed. -/
def balance (c : Cursor) : Int :=
  12 * c.index - c.steps

@[simp] theorem balance_looked (c : Cursor) : c.looked.balance = c.balance - 1 := by
  simp only [balance, looked]
  omega

@[simp] theorem balance_moved (c : Cursor) : c.moved.balance = c.balance + 11 := by
  simp only [balance, moved]
  omega

@[simp] theorem balance_entered (depth : Nat) (c : Cursor) :
    (c.entered depth).balance = c.balance - 1 := by
  simp only [balance, entered]
  omega

end Cursor

inductive Halt
  | fault (fault : ParseFault)
  /-- There is no item at an index. -/
  | outside
deriving Repr, DecidableEq

abbrev Descent := ExceptT Halt (StateT Cursor Option)

namespace Descent

variable {β γ : Type}

def run (p : Descent β) (c : Cursor) : Option (Except Halt β × Cursor) :=
  p c

def refuse (cause : ParseCause) (position : Nat) : Descent β :=
  throw (.fault ⟨cause, position⟩)

/-- A reading that would have to go on without fuel. -/
def unfinished : Descent β := fun _ =>
  none

def enter (depth : Nat) : Descent Unit :=
  modify (Cursor.entered depth)

section Looks

variable (tape : Tape)

/-- The item that stands some items ahead, or the last one. -/
def peek (ahead : Nat) : Descent Item := fun c =>
  match tape.items[min (c.index + ahead) (tape.items.length - 1)]? with
  | some item => some (.ok item, c.looked)
  | none => some (.error .outside, c.looked)

/-- The item at the index, which is passed unless it is an end mark. -/
def advance : Descent Item := fun c =>
  match tape.items[c.index]? with
  | some item => some (.ok item, if item.lexeme.isSome then c.moved else c.looked)
  | none => some (.error .outside, c.looked)

def seesEnd : Descent Bool := do
  return (← peek tape 0).lexeme.isNone

def seesSymbol (symbol : Char) : Descent Bool := do
  return (← peek tape 0).lexeme == some (.symbol symbol)

def seesSeparator : Descent Bool := do
  let item ← peek tape 0
  return item.lexeme == some .lineBreak || item.lexeme == some (.symbol ';')

def takeSymbol (symbol : Char) : Descent Item := do
  if ← seesSymbol tape symbol then advance tape
  else
    let item ← peek tape 0
    refuse (.missing symbol (item.lexeme.map Lexeme.text)) item.position

end Looks

section Runs

variable {p : Descent β} {f : β → Descent γ} {c later : Cursor} {b : β} {halt : Halt}

theorem run_bind_ok (ended : run p c = some (.ok b, later)) :
    run (p >>= f) c = run (f b) later := by
  show (p c).bind _ = _
  rw [show p c = _ from ended]
  rfl

theorem run_bind_error (ended : run p c = some (.error halt, later)) :
    run (p >>= f) c = some (.error halt, later) := by
  show (p c).bind _ = _
  rw [show p c = _ from ended]
  rfl

theorem run_enter_bind (depth : Nat) (f : Unit → Descent γ) (c : Cursor) :
    run (enter depth >>= f) c = run (f ()) (c.entered depth) :=
  rfl

end Runs

end Descent

end MatrixCalculator.Language
