import MatrixCalculator.Proofs.Checked.Session
import MatrixCalculator.Proofs.CommandLine.Evaluation
import MatrixCalculator.Proofs.Console.Handling
import MatrixCalculator.Proofs.Session.Results
import MatrixCalculator.Service

/-! The three front ends. Asked for the same expression on initial variables and with the usual
number of places, the console, the command line and the service report the same failure or show
the same last result. -/
namespace MatrixCalculator

section Outcomes

open Checked

variable {env : Environment} {source : String}

/-- No program fails in a way that is presented as a defect. -/
theorem severity_of_run {failure : Failure}
    (failed : (Session.run env source).outcome = .error failure) : failure.severity ≠ .defect := by
  have reported := run_fails_reported Library.running_documented env source
  rw [run_running, Checked.Run.ofRunning, failed] at reported
  exact reported

theorem present_of_evaluation {fault : EvaluationFault}
    (reported : (Failure.evaluation fault).severity ≠ .defect) :
    (Failure.evaluation fault).present = "Error: " ++ fault.message := by
  have refused : (Failure.evaluation fault).severity = .refused := by
    cases fault with
    | arithmetic fault =>
      rw [Failure.severity] at reported ⊢
      split
      · rfl
      · next mistake => simp [mistake] at reported
    | _ => rfl
  rw [Failure.present, refused]
  rfl

end Outcomes

namespace Service

/-- A cell holds its number, or nothing exactly if the number is not finite. -/
def Holds (x : Float) (cell : Option Float) : Prop :=
  if Scalar.isFinite x then cell = some x else cell = none

def Shows : Value Float → Cells → Prop
  | .scalar x, .scalar cell => Holds x cell
  | .matrix m, .rows rows => List.Forall₂ (List.Forall₂ Holds) m.toRows rows
  | _, _ => False

/-- An answer to a result: its name, its numbers, and the text that is shown for it, which loses the
line breaks at its ends if it is that of a matrix. -/
structure Describes (result : Binding) (described : Described) : Prop where
  name : described.name = result.1
  kind : described.kind = result.2.kind
  cells : Shows result.2 described.cells
  text : described.text = match result.2 with
    | .scalar _ => Display.value Display.defaultPlaces result.2
    | .matrix _ => Text.trimLineBreaks (Display.value Display.defaultPlaces result.2)

theorem holds_cell (x : Float) : Holds x (cell x) := by
  unfold Holds cell
  split <;> rfl

theorem describes (result : Binding) : Describes result (describe result) := by
  obtain ⟨name, x | m⟩ := result
  · exact ⟨rfl, rfl, holds_cell x, rfl⟩
  · refine ⟨rfl, rfl, ?_, rfl⟩
    show List.Forall₂ _ m.toRows (m.toRows.map fun row => row.map cell)
    rw [List.forall₂_map_right_iff]
    refine List.forall₂_same.mpr fun row _ => ?_
    rw [List.forall₂_map_right_iff]
    exact List.forall₂_same.mpr fun x _ => holds_cell x

end Service

structure FrontEnds where
  console : Step
  commandLine : CommandLine.Report
  service : Service.Response (List Service.Described)

namespace FrontEnds

variable {f : FrontEnds}

/-- All of them report a failure: with a text on the terminals and its message in the answer. -/
structure Rejects (f : FrontEnds) (text message : String) : Prop where
  printed : f.console.printed = [text]
  output : f.commandLine.output = ""
  complaints : f.commandLine.complaints = [text]
  ending : f.commandLine.ending = .finished 1
  answer : f.service = .refused message

def lastText (results : List Binding) : List String :=
  match results.getLast? with
  | none => []
  | some (name, value) => [name ++ " = " ++ Display.value Display.defaultPlaces value]

/-- All of them show the last of some results, and the service answers with all of them. -/
structure Accepts (f : FrontEnds) (results : List Binding) : Prop where
  printed : f.console.printed = lastText results
  output : f.commandLine.output = CommandLine.lines (lastText results)
  complaints : f.commandLine.complaints = []
  ending : f.commandLine.ending = .finished 0
  answer : ∃ described, f.service = .answer described ∧
    List.Forall₂ Service.Describes results described

variable {c : Console} {s : String} {failure : Failure} {results : List Binding}
  {archive : Archive}

theorem render?_usual {precision : Int} (places : precision = Display.defaultPlaces)
    (name : String) (value : Value Float) :
    Console.render? precision (name, value) =
      some (name ++ " = " ++ Display.value Display.defaultPlaces value) := by
  rw [places]
  rfl

theorem printed_console (fresh : c.environment = Environment.initial)
    (places : c.precision = Display.defaultPlaces) (trimmed : Text.trim s = s)
    (program : Console.IsProgram s)
    (ran : (Session.run Environment.initial s).outcome = .ok results) (moment : Moment) :
    (c.handle moment s).printed = lastText results := by
  have outcome : Console.outcomeOf c s = .ok results := by
    rw [Console.outcomeOf, trimmed, fresh, ran]
  unfold lastText
  cases last : results.getLast? with
  | none =>
    obtain rfl := List.getLast?_eq_none_iff.mp last
    unfold Console.outcomeOf at outcome
    simp only [Console.handle_program program, Console.runLine, outcome]
    rfl
  | some result =>
    obtain ⟨name, value⟩ := result
    exact Console.printed_handle program outcome last (render?_usual places name value)

/-- How a run starts that sets nothing: with the usual number of places and a silent log. -/
theorem start_default (configured : archive.settings = .ok Archive.defaultSettings) (s : String) :
    CommandLine.start (CommandLine.evaluating s) archive =
      .ok
        { console := ⟨Environment.initial, archive, Display.defaultPlaces, true⟩
          log := ⟨30, 1, false, [], []⟩
          showsBanner := true } := by
  rw [CommandLine.start, configured]
  rfl

/-- What the evaluation of an expression writes, and how it ends. -/
theorem evaluateOnce_ok {start : CommandLine.Start}
    (fresh : start.console.environment = Environment.initial)
    (places : start.console.precision = Display.defaultPlaces)
    (ran : (Session.run Environment.initial s).outcome = .ok results) :
    (CommandLine.evaluateOnce start s).output = CommandLine.lines (lastText results) ∧
      (CommandLine.evaluateOnce start s).complaints = [] ∧
      (CommandLine.evaluateOnce start s).ending = .finished 0 := by
  rw [← fresh] at ran
  unfold lastText
  cases last : results.getLast? with
  | none =>
    obtain rfl := List.getLast?_eq_none_iff.mp last
    rw [CommandLine.evaluateOnce_nothing ran]
    exact ⟨rfl, rfl, rfl⟩
  | some result =>
    obtain ⟨name, value⟩ := result
    rw [CommandLine.evaluateOnce_shown ran last (render?_usual places name value)]
    exact ⟨rfl, rfl, rfl⟩

theorem answer_service (program : Console.IsProgram s) (trimmed : Text.trim s = s) :
    Service.evaluateExpression ⟨s, []⟩ =
      match (Session.run Environment.initial s).outcome with
      | .ok results => .answer (results.map Service.describe)
      | .error failure => .refused failure.message := by
  have some : s ≠ "" := trimmed ▸ program.1
  have fresh : Environment.ofVariables [] = Environment.initial := rfl
  unfold Service.evaluateExpression
  simp only [trimmed, if_neg some, List.mapM_nil, pure, Except.pure, fresh]
  cases ran : (Session.run Environment.initial s).outcome with
  | ok results => rfl
  | error failure =>
    -- Only a defect would be answered in another way, and no program ends in one.
    dsimp only
    cases severity : failure.severity with
    | defect => exact absurd severity (severity_of_run ran)
    | _ => rfl

structure Asked (f : FrontEnds) (s : String) : Prop where
  program : Console.IsProgram s
  trimmed : Text.trim s = s
  console : ∃ (c : Console) (moment : Moment), c.environment = Environment.initial ∧
    c.precision = Display.defaultPlaces ∧ f.console = c.handle moment s
  commandLine : ∃ start : CommandLine.Start, start.console.environment = Environment.initial ∧
    start.console.precision = Display.defaultPlaces ∧
    f.commandLine = CommandLine.evaluateOnce start s
  service : f.service = Service.evaluateExpression ⟨s, []⟩

theorem Asked.rejects (asked : f.Asked s)
    (failed : (Session.run Environment.initial s).outcome = .error failure) :
    f.Rejects failure.present failure.message := by
  obtain ⟨c, moment, fresh, -, console⟩ := asked.console
  obtain ⟨start, initial, -, commandLine⟩ := asked.commandLine
  have outcome : Console.outcomeOf c s = .error failure := by
    rw [Console.outcomeOf, asked.trimmed, fresh, failed]
  have ended : (Session.run start.console.environment s).outcome = .error failure := by
    rw [initial, failed]
  have service := asked.service.trans (answer_service asked.program asked.trimmed)
  rw [Console.handle_failed asked.program outcome] at console
  rw [CommandLine.evaluateOnce_failed ended] at commandLine
  rw [failed] at service
  refine ⟨?_, ?_, ?_, ?_, service⟩
  · rw [console]
  · rw [commandLine]
  · rw [commandLine]
  · rw [commandLine]

theorem Asked.accepts (asked : f.Asked s)
    (ran : (Session.run Environment.initial s).outcome = .ok results) : f.Accepts results := by
  obtain ⟨c, moment, fresh, places, console⟩ := asked.console
  obtain ⟨start, initial, usual, commandLine⟩ := asked.commandLine
  obtain ⟨output, complaints, ending⟩ := evaluateOnce_ok initial usual ran
  have service := asked.service.trans (answer_service asked.program asked.trimmed)
  rw [ran] at service
  refine ⟨?_, ?_, ?_, ?_, results.map Service.describe, service, ?_⟩
  · rw [console, printed_console fresh places asked.trimmed asked.program ran]
  · rw [commandLine, output]
  · rw [commandLine, complaints]
  · rw [commandLine, ending]
  · rw [List.forall₂_map_right_iff]
    exact List.forall₂_same.mpr fun result _ => Service.describes result

end FrontEnds

open FrontEnds

/-- The front ends agree on every program that is no command: they report a failure with the same
text, as a mistake in the form of the input or in what it asks for, or show the same last result.
The service answers with one result for each statement. The command line is given the program in any
arguments that stand for it: as an argument of its own unless it looks like an option, or behind an
equals sign. On default settings it then starts as it has to. -/
theorem front_ends_agree {s : String} (some : s ≠ "") (trimmed : Text.trim s = s)
    (plain : Console.command? s = none) {c : Console}
    (fresh : c.environment = Environment.initial) (places : c.precision = Display.defaultPlaces)
    (archive : Archive) (moment : Moment) (input : String) :
    (s.toList.head? ≠ .some '-' → CommandLine.classify s = .ok .plain) ∧
    (CommandLine.classify s = .ok .plain →
      CommandLine.Options.ofArguments ["-e", s] = .ok (CommandLine.evaluating s)) ∧
    (s ≠ "--" →
      CommandLine.Options.ofArguments ["--eval=" ++ s] = .ok (CommandLine.evaluating s)) ∧
    (archive.settings = .ok Archive.defaultSettings →
      ∃ start, CommandLine.start (CommandLine.evaluating s) archive = .ok start ∧
        start.console.precision = Display.defaultPlaces ∧
        start.log.passes Diagnostics.noteLevel = false) ∧
    ∀ arguments options start, CommandLine.Options.ofArguments arguments = .ok options →
      options.expression = .some s → CommandLine.start options archive = .ok start →
      start.console.precision = Display.defaultPlaces →
      let f : FrontEnds :=
        { console := c.handle moment s
          commandLine := CommandLine.run arguments archive moment input
          service := Service.evaluateExpression ⟨s, []⟩ }
      (start.log.passes Diagnostics.noteLevel = false → f.commandLine.log.terminal = []) ∧
        match (Session.run Environment.initial s).outcome with
        | .error (.parse fault) => f.Rejects ("Syntax error: " ++ fault.message) fault.message
        | .error (.evaluation fault) => f.Rejects ("Error: " ++ fault.message) fault.message
        | .ok results => f.Accepts results ∧
          ∃ statements, Language.parse s = .ok statements ∧
            results.map (·.1) = statements.map (·.name) := by
  refine ⟨CommandLine.classify_undashed, CommandLine.ofArguments_following,
    CommandLine.ofArguments_assigned,
    fun configured => ⟨_, start_default configured s, rfl, rfl⟩, ?_⟩
  intro arguments options start accepted wanted started usual f
  obtain ⟨settings, level, -, console, logging⟩ := CommandLine.exists_of_start started
  have once : CommandLine.run arguments archive moment input = CommandLine.evaluateOnce start s :=
    CommandLine.run_evaluating accepted wanted started moment input
  have asked : f.Asked s :=
    { program := ⟨trimmed.symm ▸ some, trimmed.symm ▸ plain⟩
      trimmed := trimmed
      console := ⟨c, moment, fresh, places, by dsimp only [f]⟩
      commandLine := ⟨start, by rw [console], usual, once⟩
      service := by dsimp only [f] }
  refine ⟨fun silent => ?_, ?_⟩
  · dsimp only [f]
    rw [once, CommandLine.log_evaluateOnce, Diagnostics.Log.record_silent silent]
    exact Diagnostics.Log.terminal_configure logging silent
  cases ran : (Session.run Environment.initial s).outcome with
  | error failure =>
    have rejects := asked.rejects ran
    cases failure with
    | parse fault => exact rejects
    | evaluation fault =>
      rw [present_of_evaluation (severity_of_run ran)] at rejects
      exact rejects
  | ok results => exact ⟨asked.accepts ran, Session.names_of_run ran⟩

section Minus

theorem trim_minus : Text.trim "-pi" = "-pi" := by
  decide +kernel

theorem run_minus : (Session.run Environment.initial "-pi").outcome =
    .ok [("ans", .scalar (-3.141592653589793))] := by
  have cut : Language.CutInto 0 "-pi".toList [⟨.symbol '-', 0⟩, ⟨.name ['p', 'i'], 1⟩] := by
    decide +kernel
  have parsed : Language.parse "-pi" = .ok [⟨.unary .minus (.variable "pi"), none⟩] := by
    rw [Language.parse_eq_of_cut cut]
    cbv
  rw [Session.run, parsed]
  rfl

theorem lastText_minus :
    lastText [("ans", .scalar (-3.141592653589793))] = ["ans = -3.1416"] := by
  decide +kernel

/-- An expression that begins with a minus sign is answered alike behind an equals sign. -/
theorem minusBehindEquals_agrees :
    let moment : Moment := ⟨"2024-05-01 12:00:00", 1714557600.25⟩
    let c : Console := ⟨Environment.initial, Archive.empty, 4, true⟩
    let f : FrontEnds :=
      { console := c.handle moment "-pi"
        commandLine := CommandLine.run ["--eval=-pi"] Archive.empty moment ""
        service := Service.evaluateExpression ⟨"-pi", []⟩ }
    Text.trim "-pi" = "-pi" ∧ Console.command? "-pi" = none ∧
      Archive.empty.settings = .ok Archive.defaultSettings ∧
      f.Accepts [("ans", .scalar (-3.141592653589793))] ∧
      f.console.printed = ["ans = -3.1416"] ∧ f.commandLine.output = "ans = -3.1416\n" := by
  intro moment c f
  have usual : Archive.empty.settings = .ok Archive.defaultSettings := rfl
  obtain ⟨-, -, assigned, starts, agree⟩ :=
    front_ends_agree (by decide) trim_minus rfl (c := c) rfl rfl Archive.empty moment ""
  obtain ⟨start, started, places, -⟩ := starts usual
  obtain ⟨-, outcome⟩ :=
    agree ["--eval=-pi"] _ start (assigned (by decide)) rfl started places
  rw [run_minus] at outcome
  have accepts := outcome.1
  refine ⟨trim_minus, rfl, usual, accepts, ?_, ?_⟩
  · rw [accepts.printed, lastText_minus]
  · rw [accepts.output, lastText_minus]
    rfl

theorem printed_minus (c : Console) (fresh : c.environment = Environment.initial)
    (places : c.precision = Display.defaultPlaces) (moment : Moment) :
    (c.handle moment "-pi").printed = ["ans = -3.1416"] := by
  have program : Console.IsProgram "-pi" := by
    rw [Console.IsProgram, trim_minus]
    decide
  rw [printed_console fresh places trim_minus program run_minus moment, lastText_minus]

theorem ofArguments_minus :
    CommandLine.Options.ofArguments ["-e", "-pi"] = .error .misuse := by
  have forms : CommandLine.classifyAll ["-e", "-pi"] =
      .ok [("-e", .short .expression none), ("-pi", .unknown)] := by decide +kernel
  rw [CommandLine.Options.ofArguments, forms]
  simp [CommandLine.collect, CommandLine.collect.follow, CommandLine.Flag.takesValue]

/-- Two dashes are dropped behind an equals sign, and nothing is left to evaluate. -/
theorem ofArguments_dashes :
    CommandLine.Options.ofArguments ["--eval=--"] = .ok (CommandLine.evaluating "") := by
  have forms : CommandLine.classifyAll ["--eval=--"] =
      .ok [("--eval=--", .long .expression (some ['-', '-']))] := by decide +kernel
  have dropped : CommandLine.attachedValue ['-', '-'] = none := by decide
  rw [CommandLine.Options.ofArguments, forms]
  simp [CommandLine.collect, CommandLine.Flag.takesValue, dropped, CommandLine.Options.take,
    CommandLine.evaluating]

/-- An expression that begins with a minus sign is refused as an argument of its own, and two dashes
are nowhere evaluated by the command line, which the console does in both cases. -/
theorem dashes_disagree :
    let moment : Moment := ⟨"2024-05-01 12:00:00", 1714557600.25⟩
    let c : Console := ⟨Environment.initial, Archive.empty, 4, true⟩
    (Text.trim "-pi" = "-pi" ∧ Console.command? "-pi" = none ∧
      (c.handle moment "-pi").printed = ["ans = -3.1416"] ∧
      (CommandLine.run ["-e", "-pi"] Archive.empty moment "").output = "" ∧
      (CommandLine.run ["-e", "-pi"] Archive.empty moment "").ending = .left .misuse) ∧
    Text.trim "--" = "--" ∧ Console.command? "--" = none ∧
      (c.handle moment "--").printed =
        ["Syntax error: Unexpected end of input (at position 3)"] ∧
      (CommandLine.run ["--eval=--"] Archive.empty moment "").complaints = [] ∧
      (CommandLine.run ["--eval=--"] Archive.empty moment "").ending = .finished 0 := by
  intro moment c
  have trimmed : Text.trim "--" = "--" := by decide +kernel
  have program : Console.IsProgram "--" := by
    rw [Console.IsProgram, trimmed]
    decide
  have failed : Console.outcomeOf c "--" = .error (.parse ⟨.unexpectedEnd, 2⟩) := by
    have cut : Language.CutInto 0 "--".toList [⟨.symbol '-', 0⟩, ⟨.symbol '-', 1⟩] := by
      decide +kernel
    have refused : Language.parse "--" = .error ⟨.unexpectedEnd, 2⟩ := by
      rw [Language.parse_eq_of_cut cut]
      cbv
    rw [Console.outcomeOf, trimmed, Session.run, refused]
  have nothing : (Session.run Environment.initial "").outcome = .ok [] := by
    have empty : Language.parse "" = .ok [] := by
      rw [Language.parse_eq_of_cut .done]
      cbv
    rw [Session.run, empty]
    rfl
  have usual : Archive.empty.settings = .ok Archive.defaultSettings := rfl
  have once :=
    CommandLine.run_evaluating ofArguments_dashes rfl (start_default usual "") moment ""
  rw [CommandLine.evaluateOnce_nothing nothing] at once
  refine ⟨⟨trim_minus, rfl, printed_minus c rfl rfl moment, ?_, ?_⟩, trimmed, rfl, ?_, ?_, ?_⟩
  · rw [CommandLine.run, ofArguments_minus]
  · rw [CommandLine.run, ofArguments_minus]
  · rw [Console.handle_failed program failed]
    decide +kernel
  · rw [once]
  · rw [once]

end Minus

end MatrixCalculator
