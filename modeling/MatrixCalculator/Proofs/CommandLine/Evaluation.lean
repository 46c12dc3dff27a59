import MatrixCalculator.CommandLine
import MatrixCalculator.Proofs.Checked.Outcome

/-! The evaluation of one expression from the command line. An expression behind an equals sign is
taken as it is, but an argument of its own must not look like an option. Every run starts from the
initial variables, and what it writes follows from the outcome of the expression. -/
namespace MatrixCalculator

namespace Diagnostics

variable {log : Log} {source text : String}

theorem Log.passes_write (log : Log) (source text : String) (severity : Int) :
    (log.write source text).passes severity = log.passes severity := by
  unfold Log.write
  split <;> rfl

theorem Log.write_silent (silent : log.passes noteLevel = false) :
    log.write source text = log := by
  rw [Log.write, silent]
  rfl

theorem Log.record_silent (silent : log.passes noteLevel = false) (notes : List Note) :
    log.record notes = log := by
  unfold Log.record
  induction notes with
  | nil => rfl
  | cons note rest ih => rw [List.foldl_cons, Log.write_silent silent, ih]

/-- A log that does not let notes pass has written nothing when it is configured. -/
theorem Log.terminal_configure {choice : LevelChoice} {toFile : Bool}
    (done : Log.initial.configure choice toFile = .ok log)
    (silent : log.passes noteLevel = false) : log.terminal = [] := by
  unfold Log.configure at done
  split at done
  · contradiction
  · obtain rfl := Except.ok.inj done
    rw [Log.passes_write] at silent
    rw [Log.write_silent silent]
    rfl

end Diagnostics

namespace CommandLine

section Arguments

def evaluating (expression : String) : Options :=
  { Options.none with expression := some expression }

theorem plain_of_names : ∀ entry ∈ shortNames ++ longNames, '=' ∉ entry.1.toList := by
  decide

theorem lookup_of_assigned {names : List (String × Flag)} {argument : List Char}
    (known : ∀ entry ∈ names, entry ∈ shortNames ++ longNames) (assigned : '=' ∈ argument) :
    names.lookup (String.ofList argument) = none := by
  rw [List.lookup_eq_none_iff]
  intro entry member
  rw [bne_iff_ne]
  intro same
  apply plain_of_names entry (known entry member)
  rw [← same, String.toList_ofList]
  exact assigned

theorem toList_assigned (s : String) :
    ("--eval=" ++ s).toList = '-' :: '-' :: 'e' :: 'v' :: 'a' :: 'l' :: '=' :: s.toList := by
  rw [String.toList_append]
  rfl

theorem classify_assigned (s : String) :
    classify ("--eval=" ++ s) = .ok (.long .expression (some s.toList)) := by
  have assigned : '=' ∈ '-' :: '-' :: 'e' :: 'v' :: 'a' :: 'l' :: '=' :: s.toList := by simp
  have short := lookup_of_assigned (fun _ => List.mem_append_left longNames) assigned
  have long := lookup_of_assigned (fun _ => List.mem_append_right shortNames) assigned
  have written : exactOption ('-' :: '-' :: 'e' :: 'v' :: 'a' :: 'l' :: '=' :: s.toList) =
      some (.long .expression (some s.toList)) := by
    unfold exactOption
    simp only [short, long]
    rfl
  rw [classify, toList_assigned]
  simp [written]

/-- Any expression but two dashes can stand behind an equals sign. -/
theorem ofArguments_assigned {s : String} (some : s ≠ "--") :
    Options.ofArguments ["--eval=" ++ s] = .ok (evaluating s) := by
  have longer : "--eval=" ++ s ≠ "--" := fun same => by
    have lists := congrArg String.toList same
    rw [toList_assigned] at lists
    simp at lists
  have value : attachedValue s.toList = .some s := by
    have apart : s.toList ≠ ['-', '-'] := fun same => some (String.toList_inj.mp same)
    rw [attachedValue, if_neg apart, String.ofList_toList]
  have forms : classifyAll ["--eval=" ++ s] =
      .ok [("--eval=" ++ s, .long .expression (.some s.toList))] := by
    rw [classifyAll, if_neg longer, classify_assigned]
    rfl
  rw [Options.ofArguments, forms]
  simp [collect, Flag.takesValue, value, Options.take, evaluating]

theorem classify_undashed {s : String} (undashed : s.toList.head? ≠ .some '-') :
    classify s = .ok .plain := by
  rw [classify, if_pos (.inl undashed)]

/-- An expression that does not look like an option can be an argument of its own. -/
theorem ofArguments_following {s : String} (plain : classify s = .ok .plain) :
    Options.ofArguments ["-e", s] = .ok (evaluating s) := by
  have some : s ≠ "--" := by
    rintro rfl
    have refused : classify "--" = .error .misuse := by rfl
    cases plain.symm.trans refused
  have short : classify "-e" = .ok (.short .expression none) := by rfl
  have forms : classifyAll ["-e", s] = .ok [("-e", .short .expression none), (s, .plain)] := by
    rw [classifyAll, if_neg (by decide), short, classifyAll, if_neg some, plain]
    rfl
  rw [Options.ofArguments, forms]
  simp [collect, collect.follow, Flag.takesValue, Options.take, evaluating]

end Arguments

open MatrixCalculator.Diagnostics

variable {options : Options} {s : Start} {arguments : List String} {archive : Archive}
  {expression text : String} {failure : Failure} {results : List Binding} {result : Binding}

theorem ok_of_mapError {ε ε' β : Type} {f : ε → ε'} {outcome : Except ε β} {b : β}
    (done : outcome.mapError f = .ok b) : outcome = .ok b := by
  cases outcome with
  | error e => cases done
  | ok found => exact congrArg Except.ok (Except.ok.inj done)

/-- How a run is configured. An option goes before the setting of the same meaning. -/
theorem exists_of_start (started : start options archive = .ok s) :
    ∃ settings level, archive.settings = .ok settings ∧
      s.console =
        { environment := Environment.initial
          archive := archive
          precision :=
            options.precision.getD (precisionOf (Json.field? settings "precision"))
          keepsHistory := isSet settings "save_history" && !options.noHistory } ∧
      Log.initial.configure level options.logsToFile = .ok s.log := by
  obtain ⟨settings, configured, rest⟩ := Checked.bind_eq_ok started
  have read : archive.settings = .ok settings := ok_of_mapError configured
  dsimp only at rest
  split at rest
  all_goals
    obtain ⟨level, -, rest⟩ := Checked.bind_eq_ok rest
    obtain ⟨log, logging, built⟩ := Checked.bind_eq_ok rest
    cases built
    exact ⟨settings, level, read, rfl, ok_of_mapError logging⟩

theorem run_evaluating (accepted : Options.ofArguments arguments = .ok options)
    (asked : options.expression = some expression) (started : start options archive = .ok s)
    (moment : Moment) (input : String) :
    run arguments archive moment input = evaluateOnce s expression := by
  simp only [run, accepted, started, asked]

theorem log_evaluateOnce (s : Start) (expression : String) :
    (evaluateOnce s expression).log =
      s.log.record (Session.run s.console.environment expression).notes := by
  unfold evaluateOnce
  dsimp only
  split
  · rfl
  · split
    · rfl
    · split <;> rfl

theorem evaluateOnce_failed
    (failed : (Session.run s.console.environment expression).outcome = .error failure) :
    evaluateOnce s expression =
      ⟨"", s.log.record (Session.run s.console.environment expression).notes, [failure.present],
        s.console.archive, .finished 1⟩ := by
  simp only [evaluateOnce, failed]
  rfl

theorem evaluateOnce_nothing
    (ran : (Session.run s.console.environment expression).outcome = .ok []) :
    evaluateOnce s expression =
      ⟨"", s.log.record (Session.run s.console.environment expression).notes, [],
        s.console.archive, .finished 0⟩ := by
  simp only [evaluateOnce, ran]
  rfl

theorem evaluateOnce_shown
    (ran : (Session.run s.console.environment expression).outcome = .ok results)
    (last : results.getLast? = some result)
    (rendered : Console.render? s.console.precision result = some text) :
    evaluateOnce s expression =
      ⟨lines [text], s.log.record (Session.run s.console.environment expression).notes, [],
        s.console.archive, .finished 0⟩ := by
  simp only [evaluateOnce, ran, last, rendered]

theorem evaluateOnce_unshown
    (ran : (Session.run s.console.environment expression).outcome = .ok results)
    (last : results.getLast? = some result)
    (hidden : Console.render? s.console.precision result = none) :
    evaluateOnce s expression =
      ⟨"", s.log.record (Session.run s.console.environment expression).notes, [],
        s.console.archive, .crashed (.escape .unusablePrecision)⟩ := by
  simp only [evaluateOnce, ran, last, hidden]
  rfl

end CommandLine

end MatrixCalculator
