import MatrixCalculator.Console

/-! What a line of input can do. Each line is blank, a command, or a program that fails, has no
statement, or has a last result; and only the last kind is shown and recorded. -/
namespace MatrixCalculator.Console

def ranWith (c : Console) (input : String) : Console :=
  { c with environment := (Session.run c.environment (Text.trim input)).environment }

def notesOf (c : Console) (input : String) : List Note :=
  (Session.run c.environment (Text.trim input)).notes

def outcomeOf (c : Console) (input : String) : Except Failure (List Binding) :=
  (Session.run c.environment (Text.trim input)).outcome

/-- Only a fractional number has no text, and only with an unusable precision. -/
theorem render?_eq_none_iff {precision : Int} {result : Binding} :
    render? precision result = none ↔
      Display.isUsable precision = false ∧ result.2.numbers.any Display.isFractional = true := by
  unfold render? Display.value?
  cases Display.isUsable precision <;> simp

/-- A line that is run as a program: neither blank nor a command. -/
def IsProgram (input : String) : Prop :=
  Text.trim input ≠ "" ∧ command? (Text.trim input) = none

inductive Handled (c : Console) (moment : Moment) (input : String) : Step → Prop
  | blank (empty : Text.trim input = "") : Handled c moment input (c.say [])
  | command {command : Command} (some : Text.trim input ≠ "")
    (known : command? (Text.trim input) = .some command) : Handled c moment input (c.obey command)
  | failed {failure : Failure} (program : IsProgram input)
    (failed : outcomeOf c input = .error failure) :
    Handled c moment input ⟨ranWith c input, [failure.present], notesOf c input, .ok true⟩
  | nothing (program : IsProgram input) (ran : outcomeOf c input = .ok []) :
    Handled c moment input ⟨ranWith c input, [], notesOf c input, .ok true⟩
  | unshown {results : List Binding} {result : Binding} (program : IsProgram input)
    (ran : outcomeOf c input = .ok results) (last : results.getLast? = some result)
    (hidden : render? c.precision result = none) :
    Handled c moment input
      ⟨ranWith c input, [], notesOf c input, .error .unusablePrecision⟩
  | shown {results : List Binding} {result : Binding} {text : String} (program : IsProgram input)
    (ran : outcomeOf c input = .ok results) (last : results.getLast? = some result)
    (rendered : render? c.precision result = some text) (keepsNone : c.keepsHistory = false) :
    Handled c moment input ⟨ranWith c input, [text], notesOf c input, .ok true⟩
  | recorded {results : List Binding} {result : Binding} {text : String} {archive : Archive}
    (program : IsProgram input) (ran : outcomeOf c input = .ok results)
    (last : results.getLast? = some result) (rendered : render? c.precision result = some text)
    (keeps : c.keepsHistory = true)
    (added : c.archive.addHistory (Text.trim input) text moment = .ok archive) :
    Handled c moment input
      ⟨{ ranWith c input with archive := archive }, [text], notesOf c input, .ok true⟩
  | unrecorded {results : List Binding} {result : Binding} {text : String} {fault : ArchiveFault}
    (program : IsProgram input) (ran : outcomeOf c input = .ok results)
    (last : results.getLast? = some result) (rendered : render? c.precision result = some text)
    (keeps : c.keepsHistory = true)
    (refused : c.archive.addHistory (Text.trim input) text moment = .error fault) :
    Handled c moment input
      ⟨{ ranWith c input with archive := fault.leaves c.archive }, [text], notesOf c input,
        .error (.archive fault)⟩

theorem handled (c : Console) (moment : Moment) (input : String) :
    Handled c moment input (c.handle moment input) := by
  unfold handle
  dsimp only
  split
  · next empty => exact .blank empty
  · next some =>
    split
    · next command known => exact .command some known
    · next unknown =>
      have program : IsProgram input := ⟨some, unknown⟩
      unfold runLine
      dsimp only
      split
      · next failure failed => exact .failed program failed
      · next results ran =>
        split
        · next none =>
          obtain rfl := List.getLast?_eq_none_iff.mp none
          exact .nothing program ran
        · next result last =>
          split
          · next hidden => exact .unshown program ran last hidden
          · next text rendered =>
            split
            · next keeps =>
              split
              · next archive added => exact .recorded program ran last rendered keeps added
              · next fault refused => exact .unrecorded program ran last rendered keeps refused
            · next keepsNone =>
              exact .shown program ran last rendered (Bool.eq_false_iff.mpr keepsNone)

theorem obey_console (c : Console) (command : Command) : (c.obey command).console = c := by
  cases command with
  | history =>
    unfold obey showHistory
    dsimp only
    split <;> rfl
  | _ => rfl

/-- No line changes the precision. -/
theorem handle_precision (c : Console) (moment : Moment) (input : String) :
    (c.handle moment input).console.precision = c.precision := by
  have shape := handled c moment input
  generalize c.handle moment input = step at shape ⊢
  cases shape with
  | @command command some known => rw [obey_console]
  | _ => rfl

variable {c : Console} {moment : Moment} {input : String}

theorem showHistory_eq {past : List (String × String)} (answered : c.archive.answers = .ok past) :
    c.showHistory = c.say (past.reverse.map fun (line, text) => line ++ "  ->  " ++ text) := by
  rw [showHistory, answered]

theorem handle_history (asked : Text.trim input = "history") :
    c.handle moment input = c.showHistory := by
  rw [handle, asked]
  rfl

theorem handle_program (program : IsProgram input) :
    c.handle moment input = c.runLine moment (Text.trim input) := by
  simp only [handle, if_neg program.1, program.2]

theorem handle_failed {failure : Failure} (program : IsProgram input)
    (failed : outcomeOf c input = .error failure) :
    c.handle moment input =
      ⟨ranWith c input, [failure.present], notesOf c input, .ok true⟩ := by
  unfold outcomeOf at failed
  simp only [handle_program program, runLine, failed, ranWith, notesOf]

theorem printed_handle {results : List Binding} {result : Binding} {text : String}
    (program : IsProgram input) (ran : outcomeOf c input = .ok results)
    (last : results.getLast? = some result) (rendered : render? c.precision result = some text) :
    (c.handle moment input).printed = [text] := by
  unfold outcomeOf at ran
  simp only [handle_program program, runLine, ran, last, rendered]
  split
  · split <;> rfl
  · rfl

end MatrixCalculator.Console
