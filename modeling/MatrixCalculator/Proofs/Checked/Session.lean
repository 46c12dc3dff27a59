import MatrixCalculator.Proofs.Checked.Evaluation
import MatrixCalculator.Session

/-! Checked runs of programs. Every program ends in results or in a failure that is reported as a
mistake, whatever the variables hold and whatever the library refuses within its documentation;
over the functions that the calculator runs on, the checked run is the running one. -/
namespace MatrixCalculator.Checked

open MatrixCalculator.Language

structure Run where
  environment : Environment
  outcome : Except (Stop Failure) (List Binding)

def execute (library : Library) (env : Environment) (s : Statement) :
    Except (Stop EvaluationFault) Binding := do
  let value ← evaluate library env s.expr
  return (s.name, value)

def runStatements (library : Library) (env : Environment) : List Statement → Run
  | [] => ⟨env, .ok []⟩
  | s :: rest =>
    match execute library env s with
    | .error stop => ⟨env, .error (stop.map .evaluation)⟩
    | .ok (name, value) =>
      let later := runStatements library (env.assign name value) rest
      ⟨later.environment, later.outcome.map ((name, value) :: ·)⟩

def run (library : Library) (env : Environment) (source : String) : Run :=
  match parse source with
  | .error fault => ⟨env, .error (.fault (.parse fault))⟩
  | .ok statements => runStatements library env statements

def Run.ofRunning (run : MatrixCalculator.Run) : Run :=
  ⟨run.environment, liftM run.outcome⟩

/-- Whether a value is a number, or a matrix with as many numbers as its shape asks for. -/
def WellFormed : Value Float → Prop
  | .scalar _ => True
  | .matrix m => m.toList.length = m.rows * m.cols

def Reported (failure : Failure) : Prop :=
  failure.severity ≠ .defect

/-- Whether a run ended in results or in a reported failure, and left nothing but well-formed
values. -/
structure Run.Safe (run : Run) : Prop where
  outcome : FailsOnly (Stop.IsFault Reported) run.outcome
  stored : ∀ b ∈ run.environment.bindings, WellFormed b.2
  results : ∀ bs, run.outcome = .ok bs → ∀ b ∈ bs, WellFormed b.2

theorem wellFormed : ∀ v : Value Float, WellFormed v
  | .scalar _ => trivial
  | .matrix m => m.grid.cells.size_toArray

theorem runStatements_safe {library : Library} (documented : library.Documented)
    (statements : List Statement) (env : Environment) :
    FailsOnly (Stop.IsFault Reported) (runStatements library env statements).outcome := by
  induction statements generalizing env with
  | nil => exact failsOnly_ok _
  | cons s rest ih =>
    have safe : FailsOnly (Stop.IsFault Refused) (execute library env s) :=
      (evaluate_safe documented env s.expr).bind fun _ _ => failsOnly_ok _
    rw [runStatements]
    split
    · next stop failed =>
      rw [failed] at safe
      cases stop with
      | fault fault => exact safe
      | machine e => exact safe.elim
    · exact (ih _).map

theorem run_fails_reported {library : Library} (documented : library.Documented)
    (env : Environment) (source : String) :
    FailsOnly (Stop.IsFault Reported) (run library env source).outcome := by
  unfold run
  split
  · exact fun same => by cases same
  · exact runStatements_safe documented _ env

theorem execute_running (env : Environment) (s : Statement) :
    execute .running env s = liftM (Session.execute env s).outcome := by
  rw [execute, Session.execute, evaluate_running]
  simp only [Calculation.outcome_bind, lift_bind]
  rfl

theorem runStatements_running (statements : List Statement) (env : Environment) :
    runStatements .running env statements = .ofRunning (Session.runStatements env statements) := by
  induction statements generalizing env with
  | nil => rfl
  | cons s rest ih =>
    rw [runStatements, Session.runStatements, execute_running]
    cases executed : (Session.execute env s).outcome with
    | error fault => rfl
    | ok binding =>
      obtain ⟨name, value⟩ := binding
      simp only [lift_ok, ih, Run.ofRunning]
      cases (Session.runStatements (env.assign name value) rest).outcome <;> rfl

theorem run_running (env : Environment) (source : String) :
    run .running env source = .ofRunning (Session.run env source) := by
  unfold run Session.run
  cases parse source with
  | error fault => rfl
  | ok statements => exact runStatements_running statements env

/-- Whatever the variables hold, and whatever the library refuses that it may refuse, every
program runs safely; so does the calculator, which is the checked one over the functions that it
runs on. -/
theorem run_safe {library : Library} (documented : library.Documented) (env : Environment)
    (source : String) :
    (run library env source).Safe ∧
      run .running env source = .ofRunning (Session.run env source) ∧
      FailsOnly Reported (Session.run env source).outcome := by
  have reported := run_fails_reported documented env source
  have running := run_fails_reported Library.running_documented env source
  refine ⟨⟨reported, fun b _ => wellFormed b.2, fun _ _ b _ => wellFormed b.2⟩,
    run_running env source, ?_⟩
  rw [run_running, Run.ofRunning] at running
  cases ended : (Session.run env source).outcome with
  | error failure =>
    rw [ended] at running
    exact running
  | ok results => trivial

/-- Values without a usable pivot, and none at all. -/
def degenerate : Environment :=
  ⟨[("x", .scalar (0 / 0)), ("m", .matrix ⟨2, 2, Grid.ofFn fun _ _ => 1 / 0⟩),
    ("z", .matrix DenseMatrix.empty)]⟩

theorem degenerate_run_safe :
    Library.strict.Documented ∧
      (run .strict degenerate "a = z ^ -3; b = m \\ m; linsolve(m, [x; -8 ^ 2.5])").Safe ∧
      FailsOnly Reported
        (Session.run degenerate "a = z ^ -3; b = m \\ m; linsolve(m, [x; -8 ^ 2.5])").outcome :=
  have safe := run_safe Library.strict_documented degenerate
    "a = z ^ -3; b = m \\ m; linsolve(m, [x; -8 ^ 2.5])"
  ⟨Library.strict_documented, safe.1, safe.2.2⟩

end MatrixCalculator.Checked
