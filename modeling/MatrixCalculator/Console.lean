import MatrixCalculator.Archive
import MatrixCalculator.Display
import MatrixCalculator.Session
import MatrixCalculator.Text.Blank

/-! The console: lines of input, what is printed for each of them, and the history that is kept.
A mistake in a line is printed and the session goes on. -/
namespace MatrixCalculator

/-- What ends a line without an answer. -/
inductive Escape
  | unusablePrecision
  | archive (fault : ArchiveFault)
deriving Repr, DecidableEq

def Escape.message : Escape → String
  | .unusablePrecision => "The precision is no number of places."
  | .archive fault => fault.message

structure Console where
  environment : Environment
  archive : Archive
  precision : Int
  keepsHistory : Bool

structure Step where
  console : Console
  printed : List String
  notes : List Note
  /-- Whether the session goes on. -/
  continues : Except Escape Bool

namespace Console

def prompt : String := "> "

def clearScreen : String := "\x1b[2J\x1b[1;1H"

def banner : String :=
  "#=========================#\n" ++
  "#  MatCalc                #\n" ++
  "#  matrix calculator      #\n" ++
  "#=========================#\n" ++
  "\n" ++
  "Type \"exit\" to quit, \"clc\" to clear the screen.\n"

inductive Command
  | leave | clear | names | history
deriving Repr, DecidableEq

def command? (line : String) : Option Command :=
  match line with
  | "exit" => some .leave
  | "quit" => some .leave
  | "clc" => some .clear
  | "who" => some .names
  | "history" => some .history
  | _ => none

/-- A value under its name. An unusable precision has no text for a fractional number. -/
def render? (precision : Int) (result : Binding) : Option String :=
  (Display.value? precision result.2).map fun text => result.1 ++ " = " ++ text

def say (c : Console) (printed : List String) : Step :=
  ⟨c, printed, [], .ok true⟩

/-- Prints the recorded lines with their answers, the oldest first. -/
def showHistory (c : Console) : Step :=
  match c.archive.answers with
  | .ok records => c.say (records.reverse.map fun (line, text) => line ++ "  ->  " ++ text)
  | .error fault => ⟨c, [], [], .error (.archive fault)⟩

def obey (c : Console) : Command → Step
  | .leave => ⟨c, [], [], .ok false⟩
  | .clear => c.say [clearScreen]
  | .names => c.say [String.intercalate "  " c.environment.names]
  | .history => c.showHistory

def runLine (c : Console) (moment : Moment) (line : String) : Step :=
  let ran := Session.run c.environment line
  let after := { c with environment := ran.environment }
  match ran.outcome with
  | .error failure => ⟨after, [failure.present], ran.notes, .ok true⟩
  | .ok results =>
    match results.getLast? with
    | none => ⟨after, [], ran.notes, .ok true⟩
    | some result =>
      match render? c.precision result with
      | none => ⟨after, [], ran.notes, .error .unusablePrecision⟩
      | some text =>
        if c.keepsHistory then
          match c.archive.addHistory line text moment with
          | .ok archive => ⟨{ after with archive := archive }, [text], ran.notes, .ok true⟩
          | .error fault =>
            ⟨{ after with archive := fault.leaves c.archive }, [text], ran.notes,
              .error (.archive fault)⟩
        else ⟨after, [text], ran.notes, .ok true⟩

/-- What a line of input does, whose blanks at both ends do not count. -/
def handle (c : Console) (moment : Moment) (input : String) : Step :=
  let line := Text.trim input
  if line = "" then c.say []
  else match command? line with
    | some command => c.obey command
    | none => c.runLine moment line

inductive Event
  | prompt (text : String)
  | printed (text : String)
deriving Repr, DecidableEq

structure Transcript where
  console : Console
  events : List Event
  notes : List Note
  /-- What ended the session, unless it ended as it should. -/
  escape : Option Escape

/-- A session over the given lines, after which the input ends. -/
def converse (c : Console) (moment : Moment) : List String → Transcript
  | [] => ⟨c, [.prompt prompt, .printed ""], [], none⟩
  | line :: rest =>
    let step := c.handle moment line
    let shown := .prompt prompt :: step.printed.map Event.printed
    match step.continues with
    | .ok true =>
      let later := converse step.console moment rest
      { later with events := shown ++ later.events, notes := step.notes ++ later.notes }
    | .ok false => ⟨step.console, shown, step.notes, none⟩
    | .error escape => ⟨step.console, shown, step.notes, some escape⟩

def session (c : Console) (moment : Moment) (showsBanner : Bool) (lines : List String) :
    Transcript :=
  let spoken := c.converse moment lines
  if showsBanner then { spoken with events := .printed banner :: spoken.events } else spoken

end Console

end MatrixCalculator
