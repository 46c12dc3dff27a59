import MatrixCalculator.Proofs.Archive.Answers
import MatrixCalculator.Proofs.Console.Handling
import MatrixCalculator.Proofs.Session.Results

/-! The history over a session. A line is recorded exactly if it is a program that ran and had a
last result whose text was printed. Each such line comes in front of the others, which are cut off
behind the limit, so the stored history is the beginning of the new answers followed by the old
ones. -/
namespace MatrixCalculator

namespace Console

open Json

/-- A console that records answers in front of those that its archive holds. -/
structure Records (c : Console) (settings : Fields) (limit : Int) (past : List (String × String)) :
    Prop where
  keeps : c.keepsHistory = true
  configured : c.archive.settings = .ok settings
  limited : field? settings Archive.limitKey = some (.integer limit)
  positive : 0 ≤ limit
  writable : c.archive.Writable
  answered : c.archive.answers = .ok past

variable {c : Console} {settings : Fields} {limit : Int} {past : List (String × String)}

theorem Records.withEnvironment (records : c.Records settings limit past) (env : Environment) :
    { c with environment := env }.Records settings limit past :=
  ⟨records.keeps, records.configured, records.limited, records.positive, records.writable,
    records.answered⟩

/-- Adding an answer succeeds, and keeps as many answers as the limit admits. -/
theorem Records.addHistory (records : c.Records settings limit past) (line text : String)
    (moment : Moment) :
    ∃ archive, c.archive.addHistory line text moment = .ok archive ∧
      { c with archive := archive }.Records settings limit
        (((line, text) :: past).take limit.toNat) := by
  have limits : Archive.IsLimit ((field? settings Archive.limitKey).getD .null) := by
    rw [records.limited]
    exact .inr (.inr ⟨limit, rfl⟩)
  obtain ⟨stored, kept, next, limited, added, configured, writable, answers⟩ :=
    Archive.answers_addHistory records.configured limits records.writable records.answered line text
      moment
  rw [records.limited, Option.getD_some, Archive.limited, if_pos records.positive] at limited
  exact ⟨next, added, records.keeps, configured, records.limited, records.positive, writable,
    answers limit.toNat (Except.ok.inj limited).symm⟩

section Lines

/-- The console after some lines, each handled at its moment. A command to leave changes nothing. -/
def after (c : Console) (lines : List (Moment × String)) : Console :=
  lines.foldl (fun c line => (c.handle line.1 line.2).console) c

/-- Whether a line is a program with a statement that runs without a failure. -/
def hasResult (c : Console) (input : String) : Bool :=
  Text.trim input != "" && (command? (Text.trim input)).isNone &&
    match Language.parse (Text.trim input), outcomeOf c input with
    | .ok statements, .ok _ => !statements.isEmpty
    | _, _ => false

/-- The trimmed line with what has been printed for it, if it is a program that had a result. -/
def answerTo (c : Console) (input : String) (step : Step) : List (String × String) :=
  if c.hasResult input then step.printed.map fun text => (Text.trim input, text) else []

def newAnswers (c : Console) : List (Moment × String) → List (String × String)
  | [] => []
  | (moment, input) :: later =>
    let step := c.handle moment input
    step.console.newAnswers later ++ c.answerTo input step

theorem after_cons (c : Console) (moment : Moment) (input : String)
    (later : List (Moment × String)) :
    c.after ((moment, input) :: later) = (c.handle moment input).console.after later := by
  rw [after, List.foldl_cons, after]

theorem newAnswers_cons (c : Console) (moment : Moment) (input : String)
    (later : List (Moment × String)) :
    c.newAnswers ((moment, input) :: later) =
      (c.handle moment input).console.newAnswers later ++
        c.answerTo input (c.handle moment input) := by
  rw [newAnswers]

/-- New answers in front of those that are there, as many as a limit admits. -/
def kept (limit : Int) (new past : List (String × String)) : List (String × String) :=
  if new = [] then past else (new ++ past).take limit.toNat

theorem kept_kept (limit : Int) (new old past : List (String × String)) :
    kept limit new (kept limit old past) = kept limit (new ++ old) past := by
  unfold kept
  by_cases older : old = []
  · rw [if_pos older, older, List.append_nil]
  · have some : new ++ old ≠ [] := by simp [older]
    rw [if_neg older, if_neg some]
    split
    · next none => rw [none, List.nil_append]
    · -- Of the old part no more than the limit can be left, so it may be cut before.
      calc (new ++ (old ++ past).take limit.toNat).take limit.toNat
          = new.take limit.toNat ++
              ((old ++ past).take limit.toNat).take (limit.toNat - new.length) := List.take_append
        _ = new.take limit.toNat ++ (old ++ past).take (limit.toNat - new.length) := by
          rw [List.take_take, min_eq_left (Nat.sub_le ..)]
        _ = (new ++ (old ++ past)).take limit.toNat := List.take_append.symm
        _ = (new ++ old ++ past).take limit.toNat := by rw [List.append_assoc]

theorem hasResult_of_no_program {input : String} (other : ¬IsProgram input) :
    c.hasResult input = false := by
  unfold hasResult
  unfold IsProgram at other
  by_cases empty : Text.trim input = ""
  · simp [empty]
  · have command : command? (Text.trim input) ≠ none := fun none => other ⟨empty, none⟩
    simp [command]

theorem hasResult_of_failed {input : String} {failure : Failure}
    (failed : outcomeOf c input = .error failure) : c.hasResult input = false := by
  unfold hasResult
  rw [failed]
  cases Language.parse (Text.trim input) <;> simp

/-- A program that runs has a statement exactly if it has a result. -/
theorem hasResult_of_ran {input : String} {results : List Binding} (program : IsProgram input)
    (ran : outcomeOf c input = .ok results) : c.hasResult input = !results.isEmpty := by
  obtain ⟨statements, parsed, names⟩ := Session.names_of_run ran
  have same : results.isEmpty = statements.isEmpty := by
    simpa using congrArg List.isEmpty names
  unfold hasResult
  simp [program.1, program.2, parsed, ran, same]

/-- One line keeps what is recorded, with its answer in front. -/
theorem Records.handle (records : c.Records settings limit past) (moment : Moment)
    (input : String) :
    (c.handle moment input).console.Records settings limit
      (kept limit (c.answerTo input (c.handle moment input)) past) := by
  have shape := handled c moment input
  generalize c.handle moment input = step at shape ⊢
  cases shape with
  | blank empty =>
    have none : c.hasResult input = false := hasResult_of_no_program fun program => program.1 empty
    simpa [answerTo, none, kept, say] using records
  | @command command some known =>
    have none : c.hasResult input = false :=
      hasResult_of_no_program fun program => by simp [program.2] at known
    simpa [answerTo, none, kept, obey_console] using records
  | failed program failed =>
    have none : c.hasResult input = false := hasResult_of_failed failed
    simpa [answerTo, none, kept, ranWith] using records.withEnvironment _
  | nothing program ran =>
    have none : c.hasResult input = false := hasResult_of_ran program ran
    simpa [answerTo, none, kept, ranWith] using records.withEnvironment _
  | unshown program ran last hidden =>
    simpa [answerTo, kept, ranWith] using records.withEnvironment _
  | shown program ran last rendered keepsNone =>
    cases records.keeps.symm.trans keepsNone
  | @recorded results result text archive program ran last rendered keeps added =>
    have some : c.hasResult input = true := by
      rw [hasResult_of_ran program ran]
      cases results with
      | nil => cases last
      | cons => rfl
    obtain ⟨next, done, after⟩ := records.addHistory (Text.trim input) text moment
    cases added.symm.trans done
    simpa [answerTo, some, kept, ranWith] using after.withEnvironment _
  | unrecorded program ran last rendered keeps refused =>
    obtain ⟨next, done, -⟩ := records.addHistory (Text.trim input) _ moment
    cases refused.symm.trans done

/-- Any lines keep what is recorded, with their answers in front. -/
theorem Records.after (records : c.Records settings limit past) (lines : List (Moment × String)) :
    (c.after lines).Records settings limit (kept limit (c.newAnswers lines) past) := by
  induction lines generalizing c past with
  | nil => exact records
  | cons line later ih =>
    obtain ⟨moment, input⟩ := line
    rw [after_cons, newAnswers_cons, ← kept_kept]
    exact ih (records.handle moment input)

theorem after_precision (c : Console) (lines : List (Moment × String)) :
    (c.after lines).precision = c.precision := by
  induction lines generalizing c with
  | nil => rfl
  | cons line later ih =>
    obtain ⟨moment, input⟩ := line
    rw [after_cons, ih, handle_precision]

end Lines

section Next

variable {moment : Moment} {input : String}

theorem exists_of_hasResult (answers : c.hasResult input = true) :
    IsProgram input ∧ ∃ results result, outcomeOf c input = .ok results ∧
      results.getLast? = some result := by
  have program : IsProgram input := by
    by_contra other
    cases answers.symm.trans (hasResult_of_no_program other)
  cases ran : outcomeOf c input with
  | error failure => cases answers.symm.trans (hasResult_of_failed ran)
  | ok results =>
    have some : results ≠ [] := by
      rw [hasResult_of_ran program ran] at answers
      simpa using answers
    exact ⟨program, results, results.getLast some, rfl, List.getLast?_eq_some_getLast some⟩

/-- A program with a result prints one text, which is that of its last result. -/
theorem handle_hasResult (answers : c.hasResult input = true)
    (usable : Display.isUsable c.precision = true) :
    ∃ results result text, outcomeOf c input = .ok results ∧ results.getLast? = some result ∧
      render? c.precision result = some text ∧ (c.handle moment input).printed = [text] := by
  obtain ⟨program, results, result, ran, last⟩ := exists_of_hasResult answers
  have some : render? c.precision result ≠ none := fun none =>
    Bool.false_ne_true ((render?_eq_none_iff.mp none).1.symm.trans usable)
  obtain ⟨text, rendered⟩ := Option.ne_none_iff_exists'.mp some
  exact ⟨results, result, text, ran, last, rendered, printed_handle program ran last rendered⟩

end Next

/-- Over any lines the history stays what it has been, or holds the new answers in front of the
old ones up to the limit. What the next line does is settled with it: the history is printed from
the oldest answer on, a program that fails prints one text and changes no answer, and one with a
result prints the text of the last one. -/
theorem history_of_lines (records : c.Records settings limit past)
    (lines : List (Moment × String)) (moment : Moment) (input : String) :
    let now := c.after lines
    let step := now.handle moment input
    now.Records settings limit (kept limit (c.newAnswers lines) past) ∧
      (Text.trim input = "history" → step.continues = .ok true ∧
        step.console.archive = now.archive ∧
        step.printed = (kept limit (c.newAnswers lines) past).reverse.map
          fun (line, text) => line ++ "  ->  " ++ text) ∧
      (∀ failure, IsProgram input → outcomeOf now input = .error failure →
        step.printed = [failure.present] ∧ step.console.archive = now.archive) ∧
      (now.hasResult input = true → Display.isUsable c.precision = true →
        ∃ results result text, outcomeOf now input = .ok results ∧
          results.getLast? = some result ∧ render? c.precision result = some text ∧
          step.printed = [text]) := by
  have current := records.after lines
  have same : (c.after lines).precision = c.precision := after_precision c lines
  refine ⟨current, ?_, ?_, ?_⟩
  · intro asked
    rw [handle_history asked, showHistory_eq current.answered]
    exact ⟨rfl, rfl, rfl⟩
  · intro failure program failed
    rw [handle_failed program failed]
    exact ⟨rfl, rfl⟩
  · rw [← same]
    exact handle_hasResult

/-- A history with room for one answer holds the one to the line that is run. -/
theorem limitOfOne_history :
    let moment : Moment := ⟨"2024-05-01 12:00:00", 1714557600.25⟩
    let stored : Fields := [(Archive.limitKey, .integer 1)]
    let old : Json := Archive.recordOf "1" "ans = 1" moment
    let c : Console :=
      { environment := Environment.initial
        archive := Archive.ofSections
          [(Archive.settingsKey, .object stored), (Archive.historyKey, .array [old])]
        precision := 4
        keepsHistory := true }
    c.Records (overlay Archive.defaultSettings stored) 1 [("1", "ans = 1")] ∧
      (c.after [(moment, " pi ")]).archive.answers = .ok [("pi", "ans = 3.1416")] ∧
      ((c.after [(moment, " pi ")]).handle moment "history").printed =
        ["pi  ->  ans = 3.1416"] := by
  intro moment stored old c
  have storable : Storable (.object stored) := by
    refine .object (by decide) (by decide) fun f member => ?_
    rw [List.mem_singleton.mp member]
    exact .integer (by decide)
  have sections : Storable
      (.object [(Archive.settingsKey, .object stored), (Archive.historyKey, .array [old])]) := by
    refine Archive.storable_sections storable fun record member => ?_
    rw [List.mem_singleton.mp member]
    exact Archive.storable_record _ _ (readsBack_all _)
  obtain ⟨loadable, whole⟩ := storable_iff.mp sections
  have loaded := Archive.sections_ofSections ⟨loadable, rfl, rfl⟩ whole
  have records : c.Records (overlay Archive.defaultSettings stored) 1 [("1", "ans = 1")] := by
    refine ⟨rfl, Archive.settings_eq loaded, rfl, by decide, ⟨_, loaded, whole⟩, ?_⟩
    rw [Archive.answers_eq (Archive.history_eq loaded rfl)]
    rfl
  have trimmed : Text.trim " pi " = "pi" := by decide +kernel
  have ran : outcomeOf c " pi " = .ok [("ans", .scalar 3.141592653589793)] := by
    rw [outcomeOf, trimmed]
    exact Session.run_pi
  have program : IsProgram " pi " := by
    rw [IsProgram, trimmed]
    decide
  have rendered : render? 4 ("ans", .scalar 3.141592653589793) = some "ans = 3.1416" := by
    decide +kernel
  have printed : (c.handle moment " pi ").printed = ["ans = 3.1416"] :=
    printed_handle program ran rfl rendered
  have answers : c.newAnswers [(moment, " pi ")] = [("pi", "ans = 3.1416")] := by
    have result : c.hasResult " pi " = true := hasResult_of_ran program ran
    simp only [newAnswers, answerTo, result, printed, trimmed, List.map_cons, List.map_nil,
      if_true, List.nil_append]
  obtain ⟨current, listed, -⟩ := history_of_lines records [(moment, " pi ")] moment "history"
  rw [answers] at current listed
  exact ⟨records, current.answered, (listed (by decide +kernel)).2.2⟩
end Console
end MatrixCalculator
