import MatrixCalculator.Proofs.Language.Joining
import MatrixCalculator.Session

/-! Programs joined by a separator run one after the other: the first program, and the second one
in the variables that the first has left. -/
namespace MatrixCalculator

open MatrixCalculator.Language

/-- A run that goes on with another one, in the variables that it has left, if it has ended in
results. -/
def Run.andThen (first : Run) (next : Environment → Run) : Run :=
  match first.outcome with
  | .error failure => ⟨first.environment, first.notes, .error failure⟩
  | .ok results =>
    let later := next first.environment
    ⟨later.environment, first.notes ++ later.notes, later.outcome.map (results ++ ·)⟩

namespace Session

theorem runStatements_append (ss later : List Statement) (env : Environment) :
    runStatements env (ss ++ later) =
      (runStatements env ss).andThen fun env => runStatements env later := by
  induction ss generalizing env with
  | nil =>
    simp only [List.nil_append, runStatements, Run.andThen]
    obtain ⟨left, notes, outcome⟩ := runStatements env later
    cases outcome <;> rfl
  | cons s rest ih =>
    simp only [List.cons_append, runStatements]
    cases (execute env s).outcome with
    | error fault => rfl
    | ok binding =>
      obtain ⟨name, value⟩ := binding
      dsimp only
      rw [ih]
      obtain ⟨left, notes, outcome⟩ := runStatements (env.assign name value) rest
      cases outcome with
      | error failure => rfl
      | ok results =>
        simp only [Run.andThen, Except.map, List.append_assoc]
        cases (runStatements left later).outcome <;> rfl

/-- Joined by a separator, programs parse to the statements of both, and run one after the
other. -/
theorem run_concatenation {first second : String} {ss later : List Statement}
    (parsed : parse first = .ok ss) (parsed_later : parse second = .ok later) {c : Char}
    (separates : c ∈ [';', '\n']) :
    parse (first ++ String.singleton c ++ second) = .ok (ss ++ later) ∧
      ∀ env, run env (first ++ String.singleton c ++ second) =
        (run env first).andThen fun env => run env second := by
  have whole := parse_append parsed parsed_later separates
  refine ⟨whole, fun env => ?_⟩
  simp only [run, whole, parsed, parsed_later]
  exact runStatements_append ss later env

/-- The first program leaves a variable to the second, whose last statement fails. -/
theorem rowAndProduct_concatenation :
    parse "x = [a, b]'" =
        .ok [⟨.unary .transpose (.matrix [[.variable "a", .variable "b"]]), some "x"⟩] ∧
      parse "x * a;y" = .ok [⟨.binary .multiply (.variable "x") (.variable "a"), none⟩,
        ⟨.variable "y", none⟩] ∧
      '\n' ∈ [';', '\n'] ∧
      ∀ env, run env "x = [a, b]'\nx * a;y" =
        (run env "x = [a, b]'").andThen fun env => run env "x * a;y" := by
  have first : parse "x = [a, b]'" =
      .ok [⟨.unary .transpose (.matrix [[.variable "a", .variable "b"]]), some "x"⟩] := by
    have cut : CutInto 0 "x = [a, b]'".toList [⟨.name ['x'], 0⟩, ⟨.symbol '=', 2⟩, ⟨.symbol '[', 4⟩,
        ⟨.name ['a'], 5⟩, ⟨.symbol ',', 6⟩, ⟨.name ['b'], 8⟩, ⟨.symbol ']', 9⟩,
        ⟨.symbol '\'', 10⟩] := by decide +kernel
    rw [parse_eq_of_cut cut]
    cbv
  have second : parse "x * a;y" =
      .ok [⟨.binary .multiply (.variable "x") (.variable "a"), none⟩, ⟨.variable "y", none⟩] := by
    have cut : CutInto 0 "x * a;y".toList [⟨.name ['x'], 0⟩, ⟨.symbol '*', 2⟩, ⟨.name ['a'], 4⟩,
        ⟨.symbol ';', 5⟩, ⟨.name ['y'], 6⟩] := by decide +kernel
    rw [parse_eq_of_cut cut]
    cbv
  have line : '\n' ∈ [';', '\n'] := by decide
  exact ⟨first, second, line, (run_concatenation first second line).2⟩

end Session

end MatrixCalculator
