import MatrixCalculator.CommandLine.Options
import MatrixCalculator.Console
import MatrixCalculator.Diagnostics

/-! The command line: the options and the stored settings decide how the calculator starts, and
it then evaluates one expression or opens the console. -/
namespace MatrixCalculator.CommandLine

open MatrixCalculator.Diagnostics

/-- What ends the program without an exit code of its own. -/
inductive Crash
  | unknownLevel (choice : LevelChoice)
  | unusableSetting (key : String)
  | escape (escape : Escape)
deriving Repr, DecidableEq

inductive Ending
  /-- The options led to no run. -/
  | left (reason : Leave)
  | finished (code : Nat)
  | crashed (crash : Crash)
deriving Repr, DecidableEq

def Crash.message : Crash → String
  | .unknownLevel choice => choice.refusal
  | .unusableSetting key => "The setting " ++ key ++ " cannot be used."
  | .escape reason => reason.message

/-- What a run wrote and what it left behind. The log goes to the error output in front of the
complaints. -/
structure Report where
  output : String
  log : Log
  complaints : List String
  archive : Archive
  ending : Ending

structure Start where
  console : Console
  log : Log
  showsBanner : Bool

def levelOf : Option Json → Except Crash LevelChoice
  | some (.string (.whole name)) => .ok (.name name)
  | some (.integer n) => .ok (.number n)
  | some (.bool b) => .ok (.number b.toNat)
  | _ => .error (.unusableSetting "log_level")

/-- A setting as a precision: a whole number, or a string of its digits. -/
def precisionOf : Option Json → Int
  | some (.integer n) => n
  | some (.string (.whole s)) =>
    if s != "" && s.toList.all Text.isDecimalDigit then Text.digitsValue s.toList else noPrecision
  | _ => noPrecision

def isSet (settings : Json.Fields) (key : String) : Bool :=
  ((Json.field? settings key).map Json.isTruthy).getD false

/-- Configures the calculator. An option goes before the setting of the same meaning. -/
def start (options : Options) (archive : Archive) : Except Crash Start := do
  let settings ← archive.settings.mapError fun fault => .escape (.archive fault)
  let level ← match options.logLevel with
    | some name => pure (.name name)
    | none => levelOf (Json.field? settings "log_level")
  let log ← (Log.initial.configure level options.logsToFile).mapError .unknownLevel
  return {
    console := {
      environment := Environment.initial
      archive := archive
      precision := options.precision.getD (precisionOf (Json.field? settings "precision"))
      keepsHistory := isSet settings "save_history" && !options.noHistory }
    log := log
    showsBanner := isSet settings "show_banner" }

def lines (texts : List String) : String :=
  String.join (texts.map (· ++ "\n"))

def eventText : Console.Event → String
  | .prompt text => text
  | .printed text => text ++ "\n"

/-- Evaluates one expression. Nothing is recorded. -/
def evaluateOnce (s : Start) (expression : String) : Report :=
  let ran := Session.run s.console.environment expression
  let report (output complaints : List String) (ending : Ending) : Report :=
    ⟨lines output, s.log.record ran.notes, complaints, s.console.archive, ending⟩
  match ran.outcome with
  | .error failure => report [] [failure.present] (.finished 1)
  | .ok results =>
    match results.getLast? with
    | none => report [] [] (.finished 0)
    | some result =>
      match Console.render? s.console.precision result with
      | some text => report [text] [] (.finished 0)
      | none => report [] [] (.crashed (.escape .unusablePrecision))

def converse (s : Start) (moment : Moment) (input : List String) : Report :=
  let spoken := s.console.session moment s.showsBanner input
  { output := String.join (spoken.events.map eventText)
    log := s.log.record spoken.notes
    complaints := []
    archive := spoken.console.archive
    ending := match spoken.escape with
      | none => .finished 0
      | some escape => .crashed (.escape escape) }

/-- The lines of an input text. A last line without a line break counts if it is not empty. -/
def inputLines (text : String) : List String :=
  let all := text.splitOn "\n"
  if all.getLast? = some "" then all.dropLast else all

def run (arguments : List String) (archive : Archive) (moment : Moment) (input : String) : Report :=
  match Options.ofArguments arguments with
  | .error reason => ⟨"", Log.initial, [], archive, .left reason⟩
  | .ok options =>
    match start options archive with
    | .error crash => ⟨"", Log.initial, [], archive, .crashed crash⟩
    | .ok s =>
      match options.expression with
      | some expression => evaluateOnce s expression
      | none => converse s moment (inputLines input)

def usage : String :=
  "usage: matcalc [-h] [-e EXPR] [--precision PRECISION] [--no-history]\n" ++
  "               [--log-level \x7bDEBUG,INFO,WARNING,ERROR\x7d] [--log-file LOG_FILE]\n"

end MatrixCalculator.CommandLine
