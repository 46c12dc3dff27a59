import MatrixCalculator.Language.Parser
import MatrixCalculator.Session.Evaluation

/-! Sessions: programs that run against the variables of earlier ones. A program that does not
parse runs not at all; otherwise its statements take effect one after the other, up to the first
that fails. -/
namespace MatrixCalculator

open MatrixCalculator.Language

inductive Failure
  | parse (fault : ParseFault)
  | evaluation (fault : EvaluationFault)
deriving Repr, DecidableEq

def Failure.message : Failure → String
  | .parse fault => fault.message
  | .evaluation fault => fault.message

/-- How a failure is presented: as a mistake in the form of the input, as a mistake in what it
asks for, or as a defect of the calculator. -/
inductive Severity
  | malformed | refused | defect
deriving Repr, DecidableEq

def Severity.present (severity : Severity) (message : String) : String :=
  match severity with
  | .malformed => "Syntax error: " ++ message
  | .refused => "Error: " ++ message
  | .defect => "Internal error: " ++ message

def Failure.severity : Failure → Severity
  | .parse _ => .malformed
  | .evaluation (.arithmetic fault) => if fault.isUserError then .refused else .defect
  | .evaluation _ => .refused

def Failure.present (failure : Failure) : String :=
  failure.severity.present failure.message

abbrev Binding := String × Value Float

/-- What a program did: the variables it left, what it reported, and the results of its
statements or the failure that ended it. -/
structure Run where
  environment : Environment
  notes : List Note
  outcome : Except Failure (List Binding)

namespace Session

def execute (env : Environment) (s : Statement) : Calculation EvaluationFault Binding := do
  let value ← evaluate env s.expr
  Calculation.note (.assigned s.name value.isMatrix)
  return (s.name, value)

def runStatements (env : Environment) : List Statement → Run
  | [] => ⟨env, [], .ok []⟩
  | s :: rest =>
    let first := execute env s
    match first.outcome with
    | .error fault => ⟨env, first.notes, .error (.evaluation fault)⟩
    | .ok (name, value) =>
      let later := runStatements (env.assign name value) rest
      ⟨later.environment, first.notes ++ later.notes, later.outcome.map ((name, value) :: ·)⟩

def run (env : Environment) (source : String) : Run :=
  match parse source with
  | .error fault => ⟨env, [], .error (.parse fault)⟩
  | .ok statements => runStatements env statements

end Session

end MatrixCalculator
