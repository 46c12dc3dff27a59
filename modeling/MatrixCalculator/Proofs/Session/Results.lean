import MatrixCalculator.Proofs.Checked.Outcome
import MatrixCalculator.Proofs.Language.Joining
import MatrixCalculator.Session

/-! The results of a program that succeeds. They stand in the order of its statements. -/
namespace MatrixCalculator.Session

open MatrixCalculator.Language

variable {env : Environment} {source : String}

theorem name_of_execute {s : Statement} {result : Binding}
    (executed : (execute env s).outcome = .ok result) : result.1 = s.name := by
  unfold execute at executed
  simp only [Calculation.outcome_bind] at executed
  obtain ⟨value, -, rest⟩ := Checked.bind_eq_ok executed
  cases rest
  rfl

theorem names_of_runStatements {statements : List Statement} {results : List Binding}
    (ran : (runStatements env statements).outcome = .ok results) :
    results.map (·.1) = statements.map (·.name) := by
  induction statements generalizing env results with
  | nil =>
    cases ran
    rfl
  | cons s rest ih =>
    rw [runStatements] at ran
    cases executed : (execute env s).outcome with
    | error fault => simp [executed] at ran
    | ok result =>
      simp only [executed] at ran
      cases later : (runStatements (env.assign result.1 result.2) rest).outcome with
      | error failure =>
        rw [later] at ran
        cases ran
      | ok others =>
        rw [later] at ran
        cases ran
        rw [List.map_cons, List.map_cons, name_of_execute executed, ih later]

/-- A program that succeeds has one result for each statement, under the name of the statement. -/
theorem names_of_run {results : List Binding}
    (ran : (run env source).outcome = .ok results) :
    ∃ statements, parse source = .ok statements ∧
      results.map (·.1) = statements.map (·.name) := by
  unfold run at ran
  cases parsed : parse source with
  | error fault =>
    rw [parsed] at ran
    cases ran
  | ok statements =>
    rw [parsed] at ran
    exact ⟨statements, rfl, names_of_runStatements ran⟩

theorem run_pi : (run Environment.initial "pi").outcome =
    .ok [("ans", .scalar 3.141592653589793)] := by
  have cut : CutInto 0 "pi".toList [⟨.name ['p', 'i'], 0⟩] := by decide +kernel
  have parsed : parse "pi" = .ok [⟨.variable "pi", none⟩] := by
    rw [parse_eq_of_cut cut]
    cbv
  rw [run, parsed]
  rfl

end MatrixCalculator.Session
