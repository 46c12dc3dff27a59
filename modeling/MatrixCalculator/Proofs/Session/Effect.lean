import Mathlib.Logic.ExistsUnique
import MatrixCalculator.Proofs.Language.Joining
import MatrixCalculator.Session

/-! What a program leaves behind. Its statements take effect one after the other, each in the
variables that those before it have left, and a failure undoes nothing and lets nothing else
happen. -/
namespace MatrixCalculator

open MatrixCalculator.Language

namespace Environment

def overlaid (env : Environment) (bindings : List Binding) : Environment :=
  bindings.foldl (fun env b => env.assign b.1 b.2) env

@[simp] theorem overlaid_nil (env : Environment) : env.overlaid [] = env :=
  rfl

@[simp] theorem overlaid_cons (env : Environment) (b : Binding) (rest : List Binding) :
    env.overlaid (b :: rest) = (env.assign b.1 b.2).overlaid rest :=
  rfl

/-- A variable has the last value that it was given, or the one it had. -/
theorem lookup_overlaid (env : Environment) (bindings : List Binding) (name : String) :
    (env.overlaid bindings).lookup name = (bindings.reverse.lookup name).or (env.lookup name) := by
  induction bindings generalizing env with
  | nil => rfl
  | cons b rest ih =>
    rw [overlaid_cons, ih, List.reverse_cons, List.lookup_append, Option.or_assoc]
    congr 1
    by_cases same : name = b.1
    · rw [same, lookup_assign_self, List.lookup_cons_self, Option.some_or]
    · rw [lookup_assign_other env b.2 same, List.lookup_cons, beq_false_of_ne same]
      rfl

end Environment

namespace Session

variable {env : Environment} {s : Statement} {ss : List Statement} {done done' : List Binding}
  {outcome outcome' : Except Failure (List Binding)}

/-- The statements of a program that are executed, by what they assign, and how the program ends:
with all of them, or at the next one. -/
structure Executes (env : Environment) (ss : List Statement) (done : List Binding)
    (outcome : Except Failure (List Binding)) : Prop where
  executed : ∀ i b, done[i]? = some b → ∃ s, ss[i]? = some s ∧ b.1 = s.name ∧
    (evaluate (env.overlaid (done.take i)) s.expr).outcome = .ok b.2
  ended : (done.length = ss.length ∧ outcome = .ok done) ∨
    ∃ s fault, ss[done.length]? = some s ∧
      (evaluate (env.overlaid done) s.expr).outcome = .error fault ∧
      outcome = .error (.evaluation fault)

theorem execute_outcome (env : Environment) (s : Statement) :
    (execute env s).outcome = (evaluate env s.expr).outcome.map fun value => (s.name, value) := by
  rw [execute, Calculation.outcome_bind]
  cases (evaluate env s.expr).outcome <;> rfl

namespace Executes

theorem nil (env : Environment) : Executes env [] [] (.ok []) where
  executed i b found := by simp at found
  ended := .inl ⟨rfl, rfl⟩

theorem failed {fault : EvaluationFault} (evaluated : (evaluate env s.expr).outcome = .error fault)
    (rest : List Statement) : Executes env (s :: rest) [] (.error (.evaluation fault)) where
  executed i b found := by simp at found
  ended := .inr ⟨s, fault, rfl, evaluated, rfl⟩

theorem cons {value : Value Float} (evaluated : (evaluate env s.expr).outcome = .ok value)
    (later : Executes (env.assign s.name value) ss done outcome) :
    Executes env (s :: ss) ((s.name, value) :: done) (outcome.map ((s.name, value) :: ·)) where
  executed i b found := by
    cases i with
    | zero =>
      obtain rfl := Option.some.inj found
      exact ⟨s, rfl, rfl, evaluated⟩
    | succ i => exact later.executed i b found
  ended := by
    rcases later.ended with ⟨all, rfl⟩ | ⟨next, fault, found, refused, rfl⟩
    · exact .inl ⟨congrArg (· + 1) all, rfl⟩
    · exact .inr ⟨next, fault, found, refused, rfl⟩

theorem length_le (run : Executes env ss done outcome) : done.length ≤ ss.length := by
  cases last : done.getLast? with
  | none =>
    rw [List.getLast?_eq_none_iff.mp last]
    exact Nat.zero_le _
  | some b =>
    rw [List.getLast?_eq_getElem?] at last
    obtain ⟨s, found, -⟩ := run.executed _ b last
    have inside := (List.getElem?_eq_some_iff.mp found).1
    omega

/-- Two accounts of one program agree as far as both go. -/
theorem take_eq (run : Executes env ss done outcome) (run' : Executes env ss done' outcome') :
    ∀ i ≤ done.length, i ≤ done'.length → done.take i = done'.take i
  | 0, _, _ => rfl
  | i + 1, inside, inside' => by
    have before := take_eq run run' i (Nat.le_of_succ_le inside) (Nat.le_of_succ_le inside')
    obtain ⟨s, found, name, value⟩ := run.executed i done[i] (List.getElem?_eq_getElem inside)
    obtain ⟨s', found', name', value'⟩ :=
      run'.executed i done'[i] (List.getElem?_eq_getElem inside')
    obtain rfl := Option.some.inj (found.symm.trans found')
    rw [before] at value
    have same : done[i] = done'[i] :=
      Prod.ext (name.trans name'.symm) (Except.ok.inj (value.symm.trans value'))
    rw [List.take_succ_eq_append_getElem inside, List.take_succ_eq_append_getElem inside', before,
      same]

theorem length_le_length (run : Executes env ss done outcome)
    (run' : Executes env ss done' outcome') : done'.length ≤ done.length := by
  refine Nat.le_of_not_lt fun shorter => ?_
  rcases run.ended with ⟨all, -⟩ | ⟨s, fault, found, refused, -⟩
  · exact Nat.not_le_of_lt shorter (all ▸ run'.length_le)
  · -- The longer account gives a value to the statement at which the shorter one ends.
    obtain ⟨s', found', -, evaluated⟩ :=
      run'.executed done.length done'[done.length] (List.getElem?_eq_getElem shorter)
    obtain rfl := Option.some.inj (found.symm.trans found')
    rw [← take_eq run run' _ (Nat.le_refl _) (Nat.le_of_lt shorter), List.take_length, refused]
      at evaluated
    cases evaluated

theorem unique (run : Executes env ss done outcome) (run' : Executes env ss done' outcome') :
    done = done' ∧ outcome = outcome' := by
  have length := Nat.le_antisymm (length_le_length run' run) (length_le_length run run')
  have same := take_eq run run' done.length (Nat.le_refl _) (Nat.le_of_eq length)
  rw [List.take_length, length, List.take_length] at same
  subst same
  refine ⟨rfl, ?_⟩
  rcases run.ended with ⟨all, rfl⟩ | ⟨s, fault, found, refused, rfl⟩ <;>
    rcases run'.ended with ⟨all', rfl⟩ | ⟨s', fault', found', refused', rfl⟩
  · rfl
  · rw [all, List.getElem?_eq_none (Nat.le_refl _)] at found'
    cases found'
  · rw [all', List.getElem?_eq_none (Nat.le_refl _)] at found
    cases found
  · obtain rfl := Option.some.inj (found.symm.trans found')
    rw [Except.error.inj (refused.symm.trans refused')]

end Executes

theorem exists_executes (env : Environment) (ss : List Statement) :
    ∃ done, Executes env ss done (runStatements env ss).outcome ∧
      (runStatements env ss).environment = env.overlaid done := by
  induction ss generalizing env with
  | nil => exact ⟨[], .nil env, rfl⟩
  | cons s rest ih =>
    rw [runStatements, execute_outcome]
    cases evaluated : (evaluate env s.expr).outcome with
    | error fault => exact ⟨[], .failed evaluated rest, rfl⟩
    | ok value =>
      obtain ⟨done, later, left⟩ := ih (env.assign s.name value)
      exact ⟨(s.name, value) :: done, later.cons evaluated, left⟩

/-- The assignments that a program executes, and the variables that it leaves: the old ones overlaid
with them in their order. -/
structure Leaves (env : Environment) (ss : List Statement) (run : Run) (done : List Binding) :
    Prop where
  executes : Executes env ss done run.outcome
  environment : run.environment = env.overlaid done
  lookup : ∀ name,
    run.environment.lookup name = (done.reverse.lookup name).or (env.lookup name)

theorem run_of_error {source : String} {fault : ParseFault} (parsed : parse source = .error fault)
    (env : Environment) : run env source = ⟨env, [], .error (.parse fault)⟩ := by
  rw [run, parsed]

theorem run_of_ok {source : String} (parsed : parse source = .ok ss) (env : Environment) :
    run env source = runStatements env ss := by
  rw [run, parsed]

theorem run_overlays (env : Environment) (source : String) :
    ∃ done, (run env source).environment = env.overlaid done := by
  cases parsed : parse source with
  | error fault => exact ⟨[], by rw [run_of_error parsed]; rfl⟩
  | ok ss =>
    obtain ⟨done, -, left⟩ := exists_executes env ss
    exact ⟨done, by rw [run_of_ok parsed, left]⟩

/-- A program that does not parse leaves the variables alone. Any other one leaves them overlaid with
what the statements before the first failing one assigned, or all of them if none fails, and then
these are its results. No variable is lost. -/
theorem run_leaves (env : Environment) (source : String) :
    (∀ fault, parse source = .error fault →
      (run env source).environment = env ∧ (run env source).outcome = .error (.parse fault)) ∧
    (∀ ss, parse source = .ok ss → ∃! done, Leaves env ss (run env source) done) ∧
    ∀ name, (env.lookup name).isSome → ((run env source).environment.lookup name).isSome := by
  refine ⟨fun fault parsed => ?_, fun ss parsed => ?_, fun name known => ?_⟩
  · rw [run_of_error parsed]
    exact ⟨rfl, rfl⟩
  · obtain ⟨done, executes, left⟩ := exists_executes env ss
    rw [run_of_ok parsed]
    refine ⟨done, ⟨executes, left, fun name => ?_⟩, fun other leaves => ?_⟩
    · rw [left, Environment.lookup_overlaid]
    · exact (leaves.executes.unique executes).1
  · obtain ⟨done, left⟩ := run_overlays env source
    rw [left, Environment.lookup_overlaid, Option.isSome_or, known, Bool.or_true]

/-- The second statement transposes a number, and the third is not reached. -/
theorem failingSecond_leaves :
    parse "x = pi;y = x';z = e" = .ok [⟨.variable "pi", some "x"⟩,
        ⟨.unary .transpose (.variable "x"), some "y"⟩, ⟨.variable "e", some "z"⟩] ∧
      (∃! done, Leaves .initial [⟨.variable "pi", some "x"⟩,
        ⟨.unary .transpose (.variable "x"), some "y"⟩, ⟨.variable "e", some "z"⟩]
        (run .initial "x = pi;y = x';z = e") done) ∧
      parse "x = (pi" = .error ⟨.missing ')' none, 7⟩ ∧
      (run .initial "x = (pi").environment = .initial ∧
      (Environment.initial.lookup "pi").isSome ∧
      ((run .initial "x = pi;y = x';z = e").environment.lookup "pi").isSome := by
  have parsed : parse "x = pi;y = x';z = e" = .ok [⟨.variable "pi", some "x"⟩,
      ⟨.unary .transpose (.variable "x"), some "y"⟩, ⟨.variable "e", some "z"⟩] := by
    have cut : CutInto 0 "x = pi;y = x';z = e".toList [⟨.name ['x'], 0⟩, ⟨.symbol '=', 2⟩,
        ⟨.name ['p', 'i'], 4⟩, ⟨.symbol ';', 6⟩, ⟨.name ['y'], 7⟩, ⟨.symbol '=', 9⟩,
        ⟨.name ['x'], 11⟩, ⟨.symbol '\'', 12⟩, ⟨.symbol ';', 13⟩, ⟨.name ['z'], 14⟩,
        ⟨.symbol '=', 16⟩, ⟨.name ['e'], 18⟩] := by decide +kernel
    rw [parse_eq_of_cut cut]
    cbv
  have refused : parse "x = (pi" = .error ⟨.missing ')' none, 7⟩ := by
    have cut : CutInto 0 "x = (pi".toList [⟨.name ['x'], 0⟩, ⟨.symbol '=', 2⟩, ⟨.symbol '(', 4⟩,
        ⟨.name ['p', 'i'], 5⟩] := by decide +kernel
    rw [parse_eq_of_cut cut]
    cbv
  have known : (Environment.initial.lookup "pi").isSome := rfl
  have stopped := run_leaves .initial "x = pi;y = x';z = e"
  have unread := run_leaves .initial "x = (pi"
  exact ⟨parsed, stopped.2.1 _ parsed, refused, (unread.1 _ refused).1, known,
    stopped.2.2 "pi" known⟩

end Session

end MatrixCalculator
