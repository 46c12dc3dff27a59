import MatrixCalculator.Calculation

/-! Diagnostic logging. The notes of a calculation become log lines of the lowest severity, which
are written as far as the configured level lets them pass. -/
namespace MatrixCalculator

def Note.source : Note → String
  | .noPivot _ => "engine.matrix"
  | .assigned _ _ => "console.evaluator"
  | _ => "engine.linsolve"

def Note.text : Note → String
  | .noPivot column => s!"determinant: no pivot in column {column}, matrix is singular"
  | .invertible => "linsolve: A is invertible, solving with its inverse"
  | .contradiction row constant =>
    s!"linsolve: row {row} reads 0 = " ++ constant ++ ", system is incompatible"
  | .uniqueSolution rank => s!"linsolve: rank {rank}, unique solution"
  | .manySolutions rank unknowns =>
    s!"linsolve: rank {rank} < {unknowns} unknowns, infinitely many solutions"
  | .assigned name isMatrix => name ++ " <- " ++ if isMatrix then "Matrix" else "Scalar"

namespace Diagnostics

inductive LevelChoice
  | name (s : String)
  | number (n : Int)
deriving Repr, DecidableEq

/-- The capital of a letter. Besides the ASCII letters only the dotless i and the long s have
capitals that occur in a level name. -/
def capital (c : Char) : Char :=
  if c = 'ı' then 'I' else if c = 'ſ' then 'S' else c.toUpper

def levels : List (String × Int) :=
  [("CRITICAL", 50), ("FATAL", 50), ("ERROR", 40), ("WARN", 30), ("WARNING", 30), ("INFO", 20),
   ("DEBUG", 10), ("NOTSET", 0)]

/-- The number of a level, whose name may be written in small letters. -/
def LevelChoice.number? : LevelChoice → Option Int
  | .number n => some n
  | .name s => levels.lookup (String.ofList (s.toList.map capital))

def noteLevel : Int := 10

/-- The level of a log that no level has been chosen for. -/
def inheritedLevel : Int := 30

def namespaces : List String := ["engine", "console", "backend"]

structure Log where
  level : Int
  /-- How many places every line is written to: the terminal first, then a file. -/
  handlers : Nat
  propagates : Bool
  terminal : List String
  file : List String
deriving Repr, DecidableEq

def Log.initial : Log :=
  ⟨0, 0, true, [], []⟩

def Log.passes (log : Log) (severity : Int) : Bool :=
  (if log.level = 0 then inheritedLevel else log.level) ≤ severity

def Log.write (log : Log) (source text : String) : Log :=
  if log.passes noteLevel then
    let line := source ++ " - DEBUG - " ++ text
    { log with
      terminal := if 1 ≤ log.handlers then log.terminal ++ [line] else log.terminal
      file := if 2 ≤ log.handlers then log.file ++ [line] else log.file }
  else log

def Log.record (log : Log) (notes : List Note) : Log :=
  notes.foldl (fun l n => l.write n.source n.text) log

/-- Chooses a level and whether lines also go to a file, which is begun anew. An unknown name is
returned as given. -/
def Log.configure (log : Log) (choice : LevelChoice) (toFile : Bool) : Except LevelChoice Log :=
  match choice.number? with
  | none => .error choice
  | some level =>
    let configured : Log :=
      { log with
        level := level
        handlers := if toFile then 2 else 1
        propagates := false
        file := if toFile then [] else log.file }
    .ok (configured.write "console" "Logging initialized.")

def LevelChoice.refusal : LevelChoice → String
  | .name s => "Unknown log level: " ++ s
  | .number n => s!"Unknown log level: {n}"

end Diagnostics

end MatrixCalculator
