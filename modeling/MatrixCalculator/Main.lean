import MatrixCalculator.CommandLine
import Std.Time

/-! The program: arguments, terminal, archive file and clock around the command line. -/
namespace MatrixCalculator.Main

open MatrixCalculator.CommandLine MatrixCalculator.Diagnostics

/-- Where the archive is kept, relative to where the program runs. -/
def archiveDirectory : String := "data"

def archiveFile : String := "data/matcalc.json"

/-- An archive that is missing or cannot be read is empty. -/
def loadArchive : IO Archive := do
  try
    return ⟨some (← IO.FS.readFile archiveFile)⟩
  catch _ =>
    return Archive.empty

def storeArchive (archive : Archive) : IO Unit :=
  match archive.text with
  | none => pure ()
  | some text => do
    IO.FS.createDirAll archiveDirectory
    IO.FS.writeFile archiveFile text

def now : IO Moment := do
  let time ← Std.Time.DateTime.now
  let nanoseconds := time.toTimestamp.toNanosecondsSinceUnixEpoch.toInt
  return {
    timestamp := time.format "uuuu-MM-dd HH:mm:ss"
    epoch := Float.ofInt (nanoseconds / 1000) / 1000000 }

def emit (log : Log) (logFile : String) : IO Unit := do
  let time ← Std.Time.DateTime.now
  let stamp := time.format "HH:mm:ss" ++ " - "
  for line in log.terminal do
    IO.eprintln (stamp ++ line)
  if !log.file.isEmpty then
    let file ← IO.FS.Handle.mk logFile .append
    for line in log.file do
      file.putStrLn (stamp ++ line)

def afresh (log : Log) (notes : List Note) : Log :=
  { log with terminal := [], file := [] }.record notes

/-- Asks for lines until the input ends or a line ends the session. -/
partial def converseLive (s : Start) (logFile : String) : IO UInt32 := do
  IO.print Console.prompt
  (← IO.getStdout).flush
  let line ← (← IO.getStdin).getLine
  if line = "" then
    IO.println ""
    return 0
  let step := s.console.handle (← now) line
  emit (afresh s.log step.notes) logFile
  for text in step.printed do
    IO.println text
  if step.console.archive ≠ s.console.archive then
    storeArchive step.console.archive
  match step.continues with
  | .ok true => converseLive { s with console := step.console } logFile
  | .ok false => return 0
  | .error escape =>
    IO.eprintln (Crash.escape escape).message
    return 1

def begin (options : Options) : IO UInt32 := do
  match start options (← loadArchive) with
  | .error crash =>
    IO.eprintln crash.message
    return 1
  | .ok s =>
    let logFile := options.logFile.getD ""
    if options.logsToFile then IO.FS.writeFile logFile ""
    match options.expression with
    | none =>
      emit s.log logFile
      if s.showsBanner then IO.println Console.banner
      converseLive s logFile
    | some expression =>
      let report := evaluateOnce s expression
      emit report.log logFile
      IO.print report.output
      IO.eprint (lines report.complaints)
      match report.ending with
      | .finished code => return code.toUInt32
      | .left reason => return reason.code.toUInt32
      | .crashed crash =>
        IO.eprintln crash.message
        return 1

end MatrixCalculator.Main

def main (arguments : List String) : IO UInt32 :=
  match MatrixCalculator.CommandLine.Options.ofArguments arguments with
  | .error .help => do
    IO.print MatrixCalculator.CommandLine.usage
    return 0
  | .error .misuse => do
    IO.eprint MatrixCalculator.CommandLine.usage
    return MatrixCalculator.CommandLine.Leave.misuse.code.toUInt32
  | .ok options => MatrixCalculator.Main.begin options
