import MatrixCalculator.Proofs.Archive.Answers
import MatrixCalculator.Proofs.CommandLine.Evaluation
import MatrixCalculator.Proofs.Console.Handling
import MatrixCalculator.Proofs.Session.Results

/-! What ends a session. On an archive that is ready a line ends it by asking to leave, and it
breaks off at a line whose last result has no text: a fractional number where the precision is no
number of places. -/
namespace MatrixCalculator

namespace Console

open Archive

variable {c : Console} {moment : Moment} {input : String}

def NoText (precision : Int) (outcome : Except Failure (List Binding)) : Prop :=
  Display.isUsable precision = false ∧ ∃ results result, outcome = .ok results ∧
    results.getLast? = some result ∧ result.2.numbers.any Display.isFractional = true

def Unprintable (c : Console) (input : String) : Prop :=
  IsProgram input ∧ NoText c.precision (outcomeOf c input)

def leaves (input : String) : Bool :=
  command? (Text.trim input) = some .leave

theorem leaves_iff : leaves input = true ↔ Text.trim input = "exit" ∨ Text.trim input = "quit" := by
  unfold leaves command?
  split <;> simp_all

variable {precision : Int} {results : List Binding} {result : Binding} {failure : Failure}

theorem not_noText_error : ¬NoText precision (.error failure) := by
  rintro ⟨-, results, result, ran, -⟩
  contradiction

theorem not_noText_nil : ¬NoText precision (.ok []) := by
  rintro ⟨-, results, result, ran, last, -⟩
  cases ran
  contradiction

theorem noText_iff (last : results.getLast? = some result) :
    NoText precision (.ok results) ↔ render? precision result = none := by
  rw [render?_eq_none_iff]
  constructor
  · rintro ⟨unusable, same, other, ran, found, fractional⟩
    cases ran
    cases last.symm.trans found
    exact ⟨unusable, fractional⟩
  · rintro ⟨unusable, fractional⟩
    exact ⟨unusable, results, result, rfl, last, fractional⟩

inductive Continues (c : Console) (input : String) : Except Escape Bool → Prop
  | ends (leaving : leaves input = true) : Continues c input (.ok false)
  | breaksOff (unprintable : c.Unprintable input) :
    Continues c input (.error .unusablePrecision)
  | goesOn (staying : leaves input = false) (printable : ¬c.Unprintable input) :
    Continues c input (.ok true)

theorem leaves_of_program (program : IsProgram input) : leaves input = false := by
  simp [leaves, program.2]

theorem leaves_of_blank (empty : Text.trim input = "") : leaves input = false := by
  rw [leaves, empty]
  rfl

/-- A line on a ready archive leaves a ready archive and can only do one of three things. -/
theorem handle_continues (ready : c.archive.Ready) (moment : Moment) (input : String) :
    (c.handle moment input).console.archive.Ready ∧
      Continues c input (c.handle moment input).continues := by
  have shape := handled c moment input
  generalize c.handle moment input = step at shape ⊢
  cases shape with
  | blank empty =>
    exact ⟨ready, .goesOn (leaves_of_blank empty) fun stuck => stuck.1.1 empty⟩
  | @command command some known =>
    have idle : ¬c.Unprintable input := fun stuck => by simp [stuck.1.2] at known
    rw [obey_console]
    refine ⟨ready, ?_⟩
    cases command with
    | leave => exact .ends (by simp [leaves, known])
    | clear => exact .goesOn (by simp [leaves, known]) idle
    | names => exact .goesOn (by simp [leaves, known]) idle
    | history =>
      obtain ⟨answered, read⟩ := ready.answered
      rw [obey, showHistory_eq read]
      exact .goesOn (by simp [leaves, known]) idle
  | failed program failed =>
    exact ⟨ready, .goesOn (leaves_of_program program) fun stuck =>
      not_noText_error (failed ▸ stuck.2)⟩
  | nothing program ran =>
    exact ⟨ready, .goesOn (leaves_of_program program) fun stuck =>
      not_noText_nil (ran ▸ stuck.2)⟩
  | unshown program ran last hidden =>
    exact ⟨ready, .breaksOff ⟨program, ran ▸ (noText_iff last).mpr hidden⟩⟩
  | shown program ran last rendered keepsNone =>
    refine ⟨ready, .goesOn (leaves_of_program program) fun stuck => ?_⟩
    have hidden := (noText_iff last).mp (ran ▸ stuck.2)
    cases rendered.symm.trans hidden
  | @recorded results result text archive program ran last rendered keeps added =>
    obtain ⟨next, done, after⟩ := ready.addHistory (Text.trim input) text moment
    cases added.symm.trans done
    refine ⟨after, .goesOn (leaves_of_program program) fun stuck => ?_⟩
    have hidden := (noText_iff last).mp (ran ▸ stuck.2)
    cases rendered.symm.trans hidden
  | @unrecorded results result text fault program ran last rendered keeps refused =>
    obtain ⟨next, done, -⟩ := ready.addHistory (Text.trim input) text moment
    cases refused.symm.trans done

section Sessions

/-- None of the lines, handled one after the other, has a result without text. -/
def Prints (c : Console) (moment : Moment) : List String → Prop
  | [] => True
  | line :: rest => ¬c.Unprintable line ∧ Prints (c.handle moment line).console moment rest

def Transcript.asked (spoken : Transcript) : Nat :=
  spoken.events.count (.prompt prompt)

/-- The lines before the first that asks to leave. -/
def staying (lines : List String) : List String :=
  lines.takeWhile fun line => !leaves line

theorem staying_leaving {line : String} (leaving : leaves line = true) (rest : List String) :
    staying (line :: rest) = [] := by
  rw [staying, List.takeWhile_cons_of_neg (by simp [leaving])]

theorem staying_cons {line : String} (stays : leaves line = false) (rest : List String) :
    staying (line :: rest) = line :: staying rest := by
  rw [staying, List.takeWhile_cons_of_pos (by simp [stays]), staying]

theorem count_shown (printed : List String) :
    (.prompt prompt :: printed.map Event.printed).count (.prompt prompt) = 1 := by
  rw [List.count_cons_self, Nat.add_eq_right, List.count_eq_zero]
  simp

/-- A session on a ready archive ends at the first line that asks to leave or with the input, unless
a line before has a result without text. -/
theorem converse_ends (ready : c.archive.Ready) (moment : Moment) (lines : List String) :
    ((c.converse moment lines).escape = none ∧
        (c.converse moment lines).asked = (staying lines).length + 1 ∧
        c.Prints moment (staying lines)) ∨
      ((c.converse moment lines).escape = some .unusablePrecision ∧
        ¬c.Prints moment (staying lines)) := by
  -- The archive stays ready from line to line, so a step settles what happens to the rest.
  induction lines generalizing c with
  | nil => exact .inl ⟨rfl, rfl, trivial⟩
  | cons line rest ih =>
    obtain ⟨after, how⟩ := handle_continues ready moment line
    generalize continued : (c.handle moment line).continues = continues at how
    cases how with
    | ends leaving =>
      rw [staying_leaving leaving]
      simp only [converse, continued, Transcript.asked, count_shown]
      exact .inl ⟨trivial, rfl, trivial⟩
    | breaksOff unprintable =>
      rw [staying_cons (leaves_of_program unprintable.1)]
      simp only [converse, continued]
      exact .inr ⟨trivial, fun prints => prints.1 unprintable⟩
    | goesOn stays printable =>
      rw [staying_cons stays]
      simp only [converse, continued, Transcript.asked, List.count_append, count_shown]
      rcases ih after with ⟨fine, asked, prints⟩ | ⟨escaped, stuck⟩
      · rw [Transcript.asked] at asked
        rw [asked, List.length_cons, Nat.add_comm]
        exact .inl ⟨fine, rfl, printable, prints⟩
      · exact .inr ⟨escaped, fun prints => stuck prints.2⟩

theorem session_escape (c : Console) (moment : Moment) (showsBanner : Bool)
    (lines : List String) :
    (c.session moment showsBanner lines).escape = (c.converse moment lines).escape := by
  cases showsBanner <;> rfl

theorem session_asked (c : Console) (moment : Moment) (showsBanner : Bool)
    (lines : List String) :
    (c.session moment showsBanner lines).asked = (c.converse moment lines).asked := by
  cases showsBanner
  · rfl
  · exact List.count_cons_of_ne (by simp)

end Sessions

end Console

namespace CommandLine

open Console

variable {options : Options} {s : Start} {arguments : List String} {archive : Archive}
  {expression : String}

theorem evaluateOnce_ending (s : Start) (expression : String) :
    (∃ code, code ≤ 1 ∧ (evaluateOnce s expression).ending = .finished code) ↔
      ¬NoText s.console.precision (Session.run s.console.environment expression).outcome := by
  cases ran : (Session.run s.console.environment expression).outcome with
  | error failure =>
    rw [evaluateOnce_failed ran]
    exact ⟨fun _ => not_noText_error, fun _ => ⟨1, Nat.le_refl 1, rfl⟩⟩
  | ok results =>
    cases last : results.getLast? with
    | none =>
      obtain rfl := List.getLast?_eq_none_iff.mp last
      rw [evaluateOnce_nothing ran]
      exact ⟨fun _ => not_noText_nil, fun _ => ⟨0, Nat.zero_le 1, rfl⟩⟩
    | some result =>
      rw [noText_iff last]
      cases rendered : render? s.console.precision result with
      | none =>
        rw [evaluateOnce_unshown ran last rendered]
        simp
      | some text =>
        rw [evaluateOnce_shown ran last rendered]
        exact ⟨fun _ => nofun, fun _ => ⟨0, Nat.zero_le 1, rfl⟩⟩

/-- On a ready archive nothing but a result without text breaks a session off: a line that has none
goes on or asks to leave, a session in which no line before that has one ends there or with the
input, and the evaluation of an expression that has none ends with 0 or 1. -/
theorem endures_iff {c : Console} (ready : c.archive.Ready) (moment : Moment) :
    (∀ input, (c.handle moment input).console.archive.Ready ∧
      ((∃ goesOn, (c.handle moment input).continues = .ok goesOn) ↔ ¬c.Unprintable input) ∧
      ((c.handle moment input).continues = .ok false ↔
        Text.trim input = "exit" ∨ Text.trim input = "quit")) ∧
    (∀ showsBanner lines, let spoken := c.session moment showsBanner lines
      (spoken.escape = none ↔ c.Prints moment (staying lines)) ∧
      (spoken.escape = none → spoken.asked = (staying lines).length + 1)) ∧
    ∀ arguments options expression s input, Options.ofArguments arguments = .ok options →
      options.expression = some expression → start options c.archive = .ok s →
      ((∃ code, code ≤ 1 ∧
          (run arguments c.archive moment input).ending = .finished code) ↔
        ¬NoText s.console.precision (Session.run Environment.initial expression).outcome) := by
  refine ⟨fun input => ?_, fun showsBanner lines => ?_, ?_⟩
  · obtain ⟨after, how⟩ := handle_continues ready moment input
    refine ⟨after, ?_⟩
    rw [← leaves_iff]
    generalize (c.handle moment input).continues = continues at how
    cases how with
    | ends leaving =>
      have idle : ¬c.Unprintable input := fun stuck =>
        Bool.false_ne_true ((leaves_of_program stuck.1).symm.trans leaving)
      simp [leaving, idle]
    | breaksOff unprintable => simp [leaves_of_program unprintable.1, unprintable]
    | goesOn stays printable => simp [stays, printable]
  · dsimp only
    rw [session_escape, session_asked]
    rcases converse_ends ready moment lines with ⟨fine, asked, prints⟩ | ⟨escaped, stuck⟩
    · simp [fine, asked, prints]
    · simp [escaped, stuck]
  · intro arguments options expression s input accepted asked started
    obtain ⟨settings, level, -, console, -⟩ := exists_of_start started
    have fresh : s.console.environment = Environment.initial := by rw [console]
    rw [run_evaluating accepted asked started, ← fresh]
    exact evaluateOnce_ending s expression

/-- With an unusable precision a session still ends where a line before asks to leave. -/
theorem leavingFirst_endures :
    let moment : Moment := ⟨"2024-05-01 12:00:00", 1714557600.25⟩
    let c : Console := ⟨Environment.initial, Archive.empty, -1, true⟩
    c.archive.Ready ∧ (c.session moment true ["clc", " exit ", "pi"]).escape = none ∧
      (c.session moment true ["clc", " exit ", "pi"]).asked = 2 := by
  intro moment c
  have clears : Text.trim "clc" = "clc" := by decide +kernel
  have before : staying ["clc", " exit ", "pi"] = ["clc"] := by decide +kernel
  have prints : c.Prints moment ["clc"] := by
    refine ⟨fun stuck => ?_, trivial⟩
    have program := stuck.1.2
    rw [clears] at program
    contradiction
  obtain ⟨-, sessions, -⟩ := endures_iff (c := c) Archive.ready_empty moment
  have session := sessions true ["clc", " exit ", "pi"]
  rw [before] at session
  have fine := session.1.mpr prints
  exact ⟨Archive.ready_empty, fine, session.2 fine⟩

/-- A fractional number breaks off a session and the evaluation of an expression alike. -/
theorem negativePrecision_breaksOff :
    let moment : Moment := ⟨"2024-05-01 12:00:00", 1714557600.25⟩
    let c : Console := ⟨Environment.initial, Archive.empty, -1, true⟩
    (c.handle moment "pi").continues = .error .unusablePrecision ∧
      (run ["--precision", "-1", "-e", "pi"] Archive.empty moment "").ending =
        .crashed (.escape .unusablePrecision) := by
  intro moment c
  have trimmed : Text.trim "pi" = "pi" := by decide +kernel
  have hidden : render? (-1) ("ans", .scalar 3.141592653589793) = none := by decide +kernel
  constructor
  · have program : IsProgram "pi" := by
      rw [IsProgram, trimmed]
      decide
    rw [handle_program program, runLine, trimmed]
    simp only [c, Session.run_pi, List.getLast?_singleton, hidden]
  · have forms : classifyAll ["--precision", "-1", "-e", "pi"] =
        .ok [("--precision", .long .precision none), ("-1", .plain),
          ("-e", .short .expression none), ("pi", .plain)] := by decide +kernel
    have number : integer? "-1" = some (-1) := by decide +kernel
    have accepted : Options.ofArguments ["--precision", "-1", "-e", "pi"] =
        .ok { Options.none with expression := some "pi", precision := some (-1) } := by
      rw [Options.ofArguments, forms]
      simp [collect, collect.follow, Options.take, Flag.takesValue, number, bind, Except.bind]
    rw [run_evaluating accepted rfl rfl, evaluateOnce_unshown Session.run_pi rfl hidden]

end CommandLine

end MatrixCalculator
