import MatrixCalculator.Display
import MatrixCalculator.Json
import MatrixCalculator.Session
import MatrixCalculator.Text.Blank

/-! The service: requests in JSON for the evaluation of an expression and for the solution of a
system. Numbers that are not finite have no JSON form and are left out of an answer's cells. -/
namespace MatrixCalculator.Service

open MatrixCalculator.Json

def cell (x : Float) : Option Float :=
  if Scalar.isFinite x then some x else none

inductive Cells
  | scalar (x : Option Float)
  | rows (rows : List (List (Option Float)))

def cellRows (rows : List (List Float)) : List (List (Option Float)) :=
  rows.map fun row => row.map cell

structure Described where
  name : String
  kind : String
  cells : Cells
  text : String

structure Solved where
  kind : String
  rank : Nat
  unknowns : Nat
  solution : Option (List (List (Option Float)))
  parametrization : List String

inductive Response (β : Type)
  | answer (body : β)
  | refused (detail : String)
  | defect (detail : String)
  /-- The request does not have the required form. -/
  | unprocessable

def number? : Json → Option Float
  | .integer n => some (Float.ofInt n)
  | .double x => some x
  | _ => none

def rows? : Json → Option (List (List Float))
  | .array rows => rows.mapM fun
    | .array cells => cells.mapM number?
    | _ => none
  | _ => none

inductive Sent
  | scalar (x : Float)
  | rows (rows : List (List Float))

def sent? (json : Json) : Option Sent :=
  match number? json with
  | some x => some (.scalar x)
  | none => (rows? json).map .rows

def Sent.value : Sent → Except Fault (Value Float)
  | .scalar x => .ok (.scalar x)
  | .rows cells => return .matrix (← DenseMatrix.ofRows cells)

structure EvaluateRequest where
  expression : String
  bindings : List (String × Sent)

def EvaluateRequest.ofJson? : Json → Option EvaluateRequest
  | .object fields => do
    let .string (.whole expression) ← field? fields "expression" | none
    let bindings ← match field? fields "variables" with
      | none => some []
      | some (.object sent) => sent.mapM fun (key, json) => do
        let .whole name := key | none
        return (name, ← sent? json)
      | some _ => none
    return ⟨expression, bindings⟩
  | _ => none

structure SolveRequest where
  coefficients : List (List Float)
  constants : List (List Float)

def SolveRequest.ofJson? : Json → Option SolveRequest
  | .object fields => do
    return ⟨← rows? (← field? fields "a"), ← rows? (← field? fields "b")⟩
  | _ => none

/-- A result as it is sent. The text of a matrix loses the line breaks at its ends. -/
def describe (result : Binding) : Described :=
  let (name, value) := result
  let text := Display.value Display.defaultPlaces value
  match value with
  | .scalar x => ⟨name, value.kind, .scalar (cell x), text⟩
  | .matrix m => ⟨name, value.kind, .rows (cellRows m.toRows), Text.trimLineBreaks text⟩

def refuse {β : Type} (fault : Fault) : Response β :=
  if fault.isUserError then .refused fault.message else .defect fault.message

def evaluateExpression (request : EvaluateRequest) : Response (List Described) :=
  let expression := Text.trim request.expression
  if expression = "" then .refused "Expression cannot be empty."
  else
    match request.bindings.mapM fun (name, sent) => return (name, ← sent.value) with
    | .error fault => refuse fault
    | .ok bindings =>
      let ran := Session.run (Environment.ofVariables bindings) expression
      match ran.outcome with
      | .ok results => .answer (results.map describe)
      | .error failure =>
        match failure.severity with
        | .defect => .defect ("Evaluation error: " ++ failure.message)
        | _ => .refused failure.message

def evaluate (body : Json) : Response (List Described) :=
  match EvaluateRequest.ofJson? body with
  | none => .unprocessable
  | some request => evaluateExpression request

def solveSystem (request : SolveRequest) : Except Fault Solved := do
  let a ← DenseMatrix.ofRows request.coefficients
  let b ← DenseMatrix.ofRows request.constants
  let system ← LinearSystem.ofValues (.matrix a) (.matrix b)
  let found ← system.solve.outcome
  return {
    kind := found.outcome.kind
    rank := found.rank
    unknowns := system.unknowns
    solution := found.solution?.map fun x => cellRows x.toRows
    parametrization := found.lines.map LinearSystem.Line.text }

def linsolve (body : Json) : Response Solved :=
  match SolveRequest.ofJson? body with
  | none => .unprocessable
  | some request =>
    match solveSystem request with
    | .ok solved => .answer solved
    | .error fault => refuse fault

end MatrixCalculator.Service
