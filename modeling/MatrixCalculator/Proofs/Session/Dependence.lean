import MatrixCalculator.Proofs.Language.Mention
import MatrixCalculator.Proofs.Session.Effect

/-! What a program depends on. It sees no variable but those that it mentions, so that in two sets of
variables that agree on these it has the same results, or the same failure. -/
namespace MatrixCalculator

open MatrixCalculator.Language

/-- Variables that have the same values, and the same variables missing, among some names. -/
def Environment.AgreeOn (names : List String) (left right : Environment) : Prop :=
  ∀ name ∈ names, left.lookup name = right.lookup name

namespace Environment

variable {left right : Environment} {names others : List String}

theorem agreeOn_append :
    AgreeOn (names ++ others) left right ↔ AgreeOn names left right ∧ AgreeOn others left right :=
  List.forall_mem_append

theorem AgreeOn.overlaid (agree : AgreeOn names left right) (bindings : List Binding) :
    AgreeOn names (left.overlaid bindings) (right.overlaid bindings) := by
  intro name member
  rw [lookup_overlaid, lookup_overlaid, agree name member]

/-- What has been assigned does not depend on what was there before. -/
theorem agreeOn_assigned (left right : Environment) (bindings : List Binding) :
    AgreeOn (bindings.map (·.1)) (left.overlaid bindings) (right.overlaid bindings) := by
  intro name member
  have known : (bindings.reverse.lookup name).isSome := by
    rw [List.lookup_isSome_iff]
    simpa using member
  rw [lookup_overlaid, lookup_overlaid, Option.or_of_isSome known, Option.or_of_isSome known]

end Environment

namespace Session

open Environment

variable {left right : Environment}

mutual

theorem evaluate_congr : ∀ e : Expr, AgreeOn e.reads left right →
    evaluate left e = evaluate right e
  | .number x, _ => by rw [evaluate, evaluate]
  | .variable name, agree => by
    rw [evaluate, evaluate, agree name (List.mem_singleton_self name)]
  | .matrix rows, agree => by
    rw [evaluate, evaluate, evaluateRows_congr rows _ agree]
  | .call name arguments, agree => by
    rw [evaluate, evaluate, evaluateAll_congr arguments agree]
  | .unary operator operand, agree => by
    rw [evaluate, evaluate, evaluate_congr operand agree]
  | .binary operator first second, agree => by
    have parts := agreeOn_append.mp agree
    rw [evaluate, evaluate, evaluate_congr first parts.1, evaluate_congr second parts.2]

theorem evaluateAll_congr : ∀ es : List Expr, AgreeOn (Expr.readsAll es) left right →
    evaluateAll left es = evaluateAll right es
  | [], _ => by rw [evaluateAll, evaluateAll]
  | e :: rest, agree => by
    have parts := agreeOn_append.mp agree
    rw [evaluateAll, evaluateAll, evaluate_congr e parts.1, evaluateAll_congr rest parts.2]

theorem evaluateRow_congr : ∀ es : List Expr, AgreeOn (Expr.readsAll es) left right →
    evaluateRow left es = evaluateRow right es
  | [], _ => by rw [evaluateRow, evaluateRow]
  | e :: rest, agree => by
    have parts := agreeOn_append.mp agree
    rw [evaluateRow, evaluateRow, evaluate_congr e parts.1, evaluateRow_congr rest parts.2]

theorem evaluateRows_congr : ∀ (rows : List (List Expr)) (width : Nat),
    AgreeOn (Expr.readsRows rows) left right →
      evaluateRows left width rows = evaluateRows right width rows
  | [], _, _ => by rw [evaluateRows, evaluateRows]
  | row :: rest, width, agree => by
    have parts := agreeOn_append.mp agree
    rw [evaluateRows, evaluateRows, evaluateRow_congr row parts.1,
      evaluateRows_congr rest width parts.2]

end

theorem Executes.transfer {ss : List Statement} {done : List Binding}
    {outcome : Except Failure (List Binding)} (run : Executes left ss done outcome)
    (agree : AgreeOn (ss.flatMap fun s => s.expr.reads) left right) :
    Executes right ss done outcome := by
  have same : ∀ (i : Nat) (s : Statement) (bindings : List Binding), ss[i]? = some s →
      evaluate (left.overlaid bindings) s.expr = evaluate (right.overlaid bindings) s.expr := by
    intro i s bindings found
    have reads : AgreeOn s.expr.reads left right := fun name member =>
      agree name (List.mem_flatMap.mpr ⟨s, List.mem_of_getElem? found, member⟩)
    exact evaluate_congr s.expr (reads.overlaid bindings)
  constructor
  case executed =>
    intro i b assigned
    obtain ⟨s, found, name, value⟩ := run.executed i b assigned
    exact ⟨s, found, name, same i s _ found ▸ value⟩
  case ended =>
    rcases run.ended with complete | ⟨s, fault, found, refused, failure⟩
    · exact .inl complete
    · exact .inr ⟨s, fault, found, same _ s _ found ▸ refused, failure⟩

/-- In variables that agree on what it reads, a program executes the same assignments. -/
theorem exists_executes_both {ss : List Statement}
    (agree : AgreeOn (ss.flatMap fun s => s.expr.reads) left right) :
    (runStatements left ss).outcome = (runStatements right ss).outcome ∧
      ∃ done, Executes left ss done (runStatements left ss).outcome ∧
        Executes right ss done (runStatements right ss).outcome ∧
        (runStatements left ss).environment = left.overlaid done ∧
        (runStatements right ss).environment = right.overlaid done := by
  obtain ⟨done, executes, environment⟩ := exists_executes left ss
  obtain ⟨done', executes', environment'⟩ := exists_executes right ss
  -- What was executed on the left is an account of the right run as well, and it has only one.
  obtain ⟨rfl, outcome⟩ := (executes.transfer agree).unique executes'
  exact ⟨outcome, done, executes, executes', environment, environment'⟩

/-- A program that runs in variables that agree on the names it mentions has the same results or the
same failure in both. Variables that agreed before agree afterwards, and so do those that it has
assigned. -/
theorem run_congr {source : String} (agree : AgreeOn (mentionedIn source) left right) :
    (run left source).outcome = (run right source).outcome ∧
    (∀ names, AgreeOn names left right →
      AgreeOn names (run left source).environment (run right source).environment) ∧
    ∀ ss, parse source = .ok ss → ∃ done,
      Executes left ss done (run left source).outcome ∧
      Executes right ss done (run right source).outcome ∧
      AgreeOn (done.map (·.1)) (run left source).environment (run right source).environment := by
  cases parsed : parse source with
  | error fault =>
    rw [run_of_error parsed, run_of_error parsed]
    exact ⟨rfl, fun names agree => agree, fun ss success => by cases success⟩
  | ok ss =>
    rw [mentionedIn_of_parse parsed] at agree
    obtain ⟨outcome, done, executes, executes', environment, environment'⟩ :=
      exists_executes_both agree
    rw [run_of_ok parsed, run_of_ok parsed, environment, environment']
    refine ⟨outcome, fun names before => before.overlaid done, fun ss success => ?_⟩
    obtain rfl := Except.ok.inj success
    exact ⟨done, executes, executes', agreeOn_assigned left right done⟩

/-- The variables differ in one that is only assigned to and in one that is named like a function. -/
theorem shadowedFunction_congr :
    AgreeOn (mentionedIn "a = x!;det([a, x; x, a]);b = a'")
        ⟨[("x", .scalar 2), ("det", .scalar 1)]⟩ ⟨[("b", .scalar 3), ("x", .scalar 2)]⟩ ∧
      (run ⟨[("x", .scalar 2), ("det", .scalar 1)]⟩ "a = x!;det([a, x; x, a]);b = a'").outcome =
        (run ⟨[("b", .scalar 3), ("x", .scalar 2)]⟩ "a = x!;det([a, x; x, a]);b = a'").outcome := by
  have mentions : mentionedIn "a = x!;det([a, x; x, a]);b = a'" =
      ["x", "a", "x", "x", "a", "a"] := by
    have cut : tokenize "a = x!;det([a, x; x, a]);b = a'".toList = .ok ⟨[⟨.name ['a'], 0⟩,
        ⟨.symbol '=', 2⟩, ⟨.name ['x'], 4⟩, ⟨.symbol '!', 5⟩, ⟨.symbol ';', 6⟩,
        ⟨.name ['d', 'e', 't'], 7⟩, ⟨.symbol '(', 10⟩, ⟨.symbol '[', 11⟩, ⟨.name ['a'], 12⟩,
        ⟨.symbol ',', 13⟩, ⟨.name ['x'], 15⟩, ⟨.symbol ';', 16⟩, ⟨.name ['x'], 18⟩,
        ⟨.symbol ',', 19⟩, ⟨.name ['a'], 21⟩, ⟨.symbol ']', 22⟩, ⟨.symbol ')', 23⟩,
        ⟨.symbol ';', 24⟩, ⟨.name ['b'], 25⟩, ⟨.symbol '=', 27⟩, ⟨.name ['a'], 29⟩,
        ⟨.symbol '\'', 30⟩], 31⟩ :=
      tokenize_eq_ok_iff.mpr ⟨by decide +kernel, rfl⟩
    rw [mentionedIn, cut]
    rfl
  have agree : AgreeOn (mentionedIn "a = x!;det([a, x; x, a]);b = a'")
      ⟨[("x", .scalar 2), ("det", .scalar 1)]⟩ ⟨[("b", .scalar 3), ("x", .scalar 2)]⟩ := by
    intro name member
    rw [mentions] at member
    simp only [List.mem_cons, List.not_mem_nil, or_false] at member
    rcases member with rfl | rfl | rfl | rfl | rfl | rfl <;> rfl
  exact ⟨agree, (run_congr agree).1⟩

end Session

end MatrixCalculator
