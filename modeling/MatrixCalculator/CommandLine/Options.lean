import MatrixCalculator.Text.Blank
import MatrixCalculator.Text.DecimalDigit

/-! The options of the command line. A long option may be shortened as far as it stays
unambiguous, and its value follows it or an equals sign; the value of a short option may also be
attached to it. Nothing but options is accepted. -/
namespace MatrixCalculator.CommandLine

open MatrixCalculator.Text

structure Options where
  expression : Option String
  precision : Option Int
  noHistory : Bool
  logLevel : Option String
  logFile : Option String
deriving Repr, DecidableEq

def Options.none : Options :=
  ⟨Option.none, Option.none, false, Option.none, Option.none⟩

/-- Whether the log also goes to a file. An empty file name stands for none. -/
def Options.logsToFile (options : Options) : Bool :=
  options.logFile.getD "" != ""

/-- Why the options lead to no run of the calculator. -/
inductive Leave
  | help | misuse
deriving Repr, DecidableEq

def Leave.code : Leave → Nat
  | .help => 0
  | .misuse => 2

inductive Flag
  | help | expression | precision | noHistory | logLevel | logFile
deriving Repr, DecidableEq

def Flag.takesValue : Flag → Bool
  | .help | .noHistory => false
  | _ => true

def shortNames : List (String × Flag) :=
  [("-h", .help), ("-e", .expression)]

def longNames : List (String × Flag) :=
  [("--help", .help), ("--eval", .expression), ("--precision", .precision),
   ("--no-history", .noHistory), ("--log-level", .logLevel), ("--log-file", .logFile)]

def levelNames : List String := ["DEBUG", "INFO", "WARNING", "ERROR"]

inductive Argument
  | plain
  /-- The two dashes after which everything is plain. -/
  | terminator
  /-- A short option, possibly with a value in the same argument. -/
  | short (flag : Flag) (attached : Option (List Char))
  | long (flag : Flag) (attached : Option (List Char))
  | unknown
deriving Repr, DecidableEq

/-- Whether an argument looks like a negative number and so is no option. -/
def isNegativeNumber (argument : List Char) : Bool :=
  match argument with
  | '-' :: more =>
    let number := if more.getLast? = some '\n' then more.dropLast else more
    match number.dropWhile isDecimalDigit with
    | [] => !number.isEmpty
    | '.' :: fraction => !fraction.isEmpty && fraction.all isDecimalDigit
    | _ => false
  | _ => false

def splitEquals (text : List Char) : List Char × Option (List Char) :=
  match text.dropWhile (· != '=') with
  | [] => (text, .none)
  | _ :: value => (text.takeWhile (· != '='), some value)

def exactOption (argument : List Char) : Option Argument :=
  let occurrence (name : List Char) (attached : Option (List Char)) : Option Argument :=
    match shortNames.lookup (String.ofList name), longNames.lookup (String.ofList name) with
    | some flag, _ => some (.short flag attached)
    | _, some flag => some (.long flag attached)
    | _, _ => .none
  match occurrence argument .none, splitEquals argument with
  | some found, _ => some found
  | .none, (name, some value) => occurrence name (some value)
  | .none, _ => .none

def shortened (argument : List Char) : List Argument :=
  match argument with
  | '-' :: '-' :: _ =>
    let (start, value) := splitEquals argument
    let matching := longNames.filter fun entry => start.isPrefixOf entry.1.toList
    matching.map fun entry => .long entry.2 value
  | '-' :: c :: value =>
    let matching := shortNames.filter fun entry => entry.1.toList == ['-', c]
    matching.map fun entry => .short entry.2 (some value)
  | _ => []

def classify (argument : String) : Except Leave Argument :=
  let cs := argument.toList
  if cs.head? ≠ some '-' ∨ cs = ['-'] then .ok .plain
  else match exactOption cs, shortened cs with
    | some found, _ => .ok found
    | .none, [found] => .ok found
    | .none, _ :: _ :: _ => .error .misuse
    | .none, [] => .ok (if isNegativeNumber cs || cs.contains ' ' then .plain else .unknown)

def classifyAll : List String → Except Leave (List (String × Argument))
  | [] => .ok []
  | argument :: rest =>
    if argument = "--" then
      .ok ((argument, .terminator) :: rest.map fun plain => (plain, .plain))
    else do
      let form ← classify argument
      return (argument, form) :: (← classifyAll rest)

/-- The digits of a whole number: decimal digits, between which single underscores may stand. -/
def integerDigits? : List Char → Option (List Char)
  | [] => .none
  | [c] => if isDecimalDigit c then some [c] else .none
  | c :: '_' :: rest =>
    if isDecimalDigit c then (integerDigits? rest).map (c :: ·) else .none
  | c :: rest => if isDecimalDigit c then (integerDigits? rest).map (c :: ·) else .none

/-- A whole number with an optional sign and blanks around it. -/
def integer? (text : String) : Option Int :=
  let (negative, unsigned) := match trimBy isNumberMargin text.toList with
    | '-' :: more => (true, more)
    | '+' :: more => (false, more)
    | more => (false, more)
  match integerDigits? unsigned with
  | .none => .none
  | some digits =>
    let size : Int := digitsValue digits
    if digitLimit < digits.length then .none else some (if negative then -size else size)

/-- Stands for a precision that no fractional number can be shown with. -/
def noPrecision : Int := -1

/-- The options after one more flag with its value. A flag whose value is dropped asks for an empty
expression, for no usable precision, for the level of the settings or for no file. -/
def Options.take (options : Options) (flag : Flag) (value : Option String) :
    Except Leave Options :=
  match flag, value with
  | .help, _ => .error .help
  | .expression, text => .ok { options with expression := some (text.getD "") }
  | .precision, .none => .ok { options with precision := some noPrecision }
  | .precision, some text =>
    match integer? text with
    | some n => .ok { options with precision := some n }
    | .none => .error .misuse
  | .noHistory, _ => .ok { options with noHistory := true }
  | .logLevel, .none => .ok { options with logLevel := .none }
  | .logLevel, some text =>
    if text ∈ levelNames then .ok { options with logLevel := some text } else .error .misuse
  | .logFile, text => .ok { options with logFile := text }

/-- An attached value. Two dashes in its place are dropped. -/
def attachedValue (text : List Char) : Option String :=
  if text = ['-', '-'] then .none else some (String.ofList text)

/-- How a row of short options in one argument ends whose first asks for help. Help is given
unless an option of the row is used wrongly; `follows` says whether a plain argument follows. -/
def helpRow (follows : Bool) : List Char → Leave
  | [] => .misuse
  | ['h'] => .help
  | 'h' :: more => helpRow follows more
  | 'e' :: more => if more.isEmpty && !follows then .misuse else .help
  | _ => .misuse

/-- Takes the arguments from left to right. Plain arguments and unknown options are refused at
the end only. -/
def collect (options : Options) (refused : Bool) :
    List (String × Argument) → Except Leave Options
  | [] => if refused then .error .misuse else .ok options
  | (_, .short flag (some value)) :: rest =>
    if flag.takesValue then do
      let taken ← options.take flag (attachedValue value)
      collect taken refused rest
    else
      let follows := match rest with
        | (_, .plain) :: _ => true
        | _ => false
      .error (helpRow follows value)
  | (_, .long flag (some value)) :: rest =>
    if flag.takesValue then do
      let taken ← options.take flag (attachedValue value)
      collect taken refused rest
    else .error .misuse
  | (_, .short flag .none) :: rest => follow flag rest
  | (_, .long flag .none) :: rest => follow flag rest
  | (_, _) :: rest => collect options true rest
where
  /-- Takes a flag whose value, if it needs one, is the next argument. -/
  follow (flag : Flag) : List (String × Argument) → Except Leave Options
    | (value, .plain) :: rest =>
      if flag.takesValue then do
        let taken ← options.take flag (some value)
        collect taken refused rest
      else do
        let taken ← options.take flag .none
        collect taken refused ((value, .plain) :: rest)
    | rest =>
      if flag.takesValue then .error .misuse
      else do
        let taken ← options.take flag .none
        collect taken refused rest

def Options.ofArguments (arguments : List String) : Except Leave Options := do
  collect Options.none false (← classifyAll arguments)

end MatrixCalculator.CommandLine
