import MatrixCalculator.Json.Reader
import MatrixCalculator.Json.Writer

/-! The archive: the settings and the history of evaluated lines, kept as one JSON text. Every
operation reads the whole text, and a change writes it back with all other sections as they
were. A missing or malformed text counts as the empty archive. A string that is no text can be read
but not written, and then the archive keeps only what has gone out before. -/
namespace MatrixCalculator

structure Archive where
  text : Option String
deriving Repr, DecidableEq

inductive ArchiveFault
  | oversizedInteger
  | settingsNotObject
  | historyNotArray
  | limitNotInteger
  /-- There is half of a surrogate pair in what should be written, and `left` is what stands before
  it. -/
  | unpairedSurrogate (left : String)
deriving Repr, DecidableEq

def ArchiveFault.message : ArchiveFault → String
  | .oversizedInteger => "The archive holds a whole number with too many digits."
  | .settingsNotObject => "The settings in the archive are no object."
  | .historyNotArray => "The history in the archive is no list of records."
  | .limitNotInteger => "The limit of the history is no whole number."
  | .unpairedSurrogate _ => "The archive holds half of a surrogate pair."

/-- The archive after an operation that has failed. -/
def ArchiveFault.leaves (archive : Archive) : ArchiveFault → Archive
  | .unpairedSurrogate left => ⟨some left⟩
  | _ => archive

structure Moment where
  timestamp : String
  epoch : Float

namespace Archive

open Json

def empty : Archive := ⟨none⟩

def settingsKey : Str := "settings"

def historyKey : Str := "history"

def limitKey : Str := "history_limit"

def defaultSettings : Fields :=
  [("precision", .integer 4), ("show_banner", .bool true), ("save_history", .bool true),
   ("history_limit", .integer 200), ("log_level", .string "WARNING")]

def emptySections : Fields :=
  [(settingsKey, .object defaultSettings), (historyKey, .array [])]

/-- The sections of the archive. The two that every operation relies on are always present. -/
def sections (archive : Archive) : Except ArchiveFault Fields :=
  match archive.text with
  | none => .ok emptySections
  | some text =>
    match Json.read text.toList with
    | .ok (.object fields) =>
      .ok (putDefault historyKey (.array [])
        (putDefault settingsKey (.object defaultSettings) fields))
    | .error .oversizedInteger => .error .oversizedInteger
    | _ => .ok emptySections

def ofSections (fields : Fields) : Archive :=
  ⟨some (Json.object fields).text⟩

def store (fields : Fields) : Except ArchiveFault Archive :=
  match torn 0 (.object fields) with
  | none => .ok (ofSections fields)
  | some left => .error (.unpairedSurrogate (String.ofList left))

/-- The setting that a pair stands for. A key that is neither a string nor in brackets is taken,
but no setting has it. -/
def settingOf : Json → Except ArchiveFault Fields
  | .array [.string key, value] => .ok [(key, value)]
  | .array [.array _, _] => .error .settingsNotObject
  | .array [.object _, _] => .error .settingsNotObject
  | .array [_, _] => .ok []
  | .object [(key, _), (value, _)] => .ok [(key, .string value)]
  | .string pair =>
    match pair.points with
    | [key, value] => .ok [(.ofPoints [key], .string (.ofPoints [value]))]
    | _ => .error .settingsNotObject
  | _ => .error .settingsNotObject

/-- The stored settings laid over the default ones. They may also be given as a list of pairs. -/
def settingsOf (fields : Fields) : Except ArchiveFault Fields :=
  match field? fields settingsKey with
  | none => .ok defaultSettings
  | some (.object stored) => .ok (overlay defaultSettings stored)
  | some (.array pairs) => do
    let given ← pairs.mapM settingOf
    return overlay defaultSettings given.flatten
  | some (.string (.whole "")) => .ok defaultSettings
  | some _ => .error .settingsNotObject

def settings (archive : Archive) : Except ArchiveFault Fields := do
  settingsOf (← archive.sections)

def withSection (archive : Archive) (key : Str) (value : Json) :
    Except ArchiveFault Archive := do
  store (put key value (← archive.sections))

def saveSettings (archive : Archive) (stored : Fields) : Except ArchiveFault Archive :=
  archive.withSection settingsKey (.object stored)

def recordOf (expression answer : String) (moment : Moment) : Json :=
  .object [("expression", .string expression), ("answer", .string answer),
    ("timestamp", .string moment.timestamp), ("epoch", .double moment.epoch)]

/-- The records that a limit keeps: all, the first ones, or all but the last ones. -/
def limited (limit : Json) (records : List Json) : Except ArchiveFault (List Json) :=
  match limit with
  | .null => .ok records
  | .bool b => .ok (records.take b.toNat)
  | .integer n =>
    .ok (if 0 ≤ n then records.take n.toNat else records.take (records.length - n.natAbs))
  | _ => .error .limitNotInteger

/-- Records an evaluated line in front of the others and drops what the limit does not keep. -/
def addHistory (archive : Archive) (expression answer : String) (moment : Moment) :
    Except ArchiveFault Archive := do
  let fields ← archive.sections
  let limit := (field? (← settingsOf fields) limitKey).getD .null
  match field? fields historyKey with
  | some (.array records) =>
    let kept ← limited limit (recordOf expression answer moment :: records)
    store (put historyKey (.array kept) fields)
  | _ => .error .historyNotArray

/-- The recorded lines, the newest first. -/
def history (archive : Archive) : Except ArchiveFault Json := do
  return (field? (← archive.sections) historyKey).getD (.array [])

def answers (archive : Archive) : Except ArchiveFault (List (String × String)) := do
  match ← archive.history with
  | .array records => records.mapM fun
    | .object fields =>
      match field? fields "expression", field? fields "answer" with
      | some (.string (.whole expression)), some (.string (.whole answer)) =>
        .ok (expression, answer)
      | _, _ => .error .historyNotArray
    | _ => .error .historyNotArray
  | _ => .error .historyNotArray

def clearHistory (archive : Archive) : Except ArchiveFault Archive :=
  archive.withSection historyKey (.array [])

def cleared : Archive :=
  ofSections emptySections

end Archive

end MatrixCalculator
