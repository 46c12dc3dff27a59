import MatrixCalculator.Proofs.Checked.Operation
import MatrixCalculator.Session

/-! Checked evaluation. The cells of a matrix literal are written one by one into a matrix of
zeros, whose shape the first row sets, and a named function is given as many values as it takes. -/
namespace MatrixCalculator.Checked

open MatrixCalculator.Language

def inContext {β : Type} (outcome : Except (Stop Fault) β) : Except (Stop EvaluationFault) β :=
  outcome.mapError (Stop.map .arithmetic)

def cell : Value Float → Except EvaluationFault Float
  | .scalar x => .ok x
  | .matrix _ => .error .nestedMatrix

def applyBuiltin : Builtin → List (Value Float) → Except (Stop EvaluationFault) (Value Float)
  | .unary run, [v] => inContext (run v)
  | .binary run, [v, w] => inContext (run v w)
  | _, _ => .error (.machine .arity)

mutual

def evaluate (library : Library) (env : Environment) :
    Expr → Except (Stop EvaluationFault) (Value Float)
  | .number x => .ok (.scalar x)
  | .variable name =>
    match env.lookup name with
    | some value => .ok value
    | none => .error (.fault (.undefinedVariable name))
  | .matrix rows => do
    let width := (rows.head?.map List.length).getD 0
    let blank ← inContext (liftM (DenseMatrix.new rows.length width none))
    let filled ← fillRows library env width 0 rows blank
    return .matrix filled
  | .call name arguments =>
    match builtin? library name with
    | none => .error (.fault (.undefinedFunction name))
    | some function =>
      if arguments.length = function.arity then do
        let values ← evaluateAll library env arguments
        applyBuiltin function values
      else .error (.fault (.wrongArity name function.arity))
  | .unary operator operand => do
    let value ← evaluate library env operand
    inContext (applyUnary operator value)
  | .binary operator left right => do
    let first ← evaluate library env left
    let second ← evaluate library env right
    inContext (applyBinary library operator first second)

def evaluateAll (library : Library) (env : Environment) :
    List Expr → Except (Stop EvaluationFault) (List (Value Float))
  | [] => .ok []
  | e :: rest => do
    let value ← evaluate library env e
    let values ← evaluateAll library env rest
    return value :: values

def fillRow (library : Library) (env : Environment) (i j : Nat) :
    List Expr → DenseMatrix Float → Except (Stop EvaluationFault) (DenseMatrix Float)
  | [], m => .ok m
  | e :: rest, m => do
    let value ← evaluate library env e
    let x ← cell value
    let next ← inContext (liftM (m.set i j x))
    fillRow library env i (j + 1) rest next

def fillRows (library : Library) (env : Environment) (width i : Nat) :
    List (List Expr) → DenseMatrix Float → Except (Stop EvaluationFault) (DenseMatrix Float)
  | [], m => .ok m
  | row :: rest, m =>
    if row.length = width then do
      let next ← fillRow library env i 0 row m
      fillRows library env width (i + 1) rest next
    else .error (.fault .raggedLiteral)

end

def Refused (fault : EvaluationFault) : Prop :=
  (Failure.evaluation fault).severity ≠ .defect

theorem inContext_safe {β : Type} {outcome : Except (Stop Fault) β}
    (safe : FailsOnly IsUserError outcome) :
    FailsOnly (Stop.IsFault Refused) (inContext outcome) := by
  refine safe.mapError fun stop user => ?_
  cases stop with
  | machine e => exact user
  | fault fault =>
    have user : fault.isUserError = true := user
    simp [Stop.map, Stop.IsFault, Refused, Failure.severity, user]

@[simp] theorem inContext_lift_ok {β : Type} (b : β) :
    inContext (liftM (.ok b : Except Fault β)) = .ok b :=
  rfl

theorem cell_safe (v : Value Float) : FailsOnly Refused (cell v) := by
  cases v with
  | scalar x => exact failsOnly_ok x
  | matrix m => exact fun same => by cases same

theorem applyBuiltin_safe {function : Builtin} (safe : function.Safe) {values : List (Value Float)}
    (fits : values.length = function.arity) :
    FailsOnly (Stop.IsFault Refused) (applyBuiltin function values) := by
  cases function with
  | unary run =>
    obtain ⟨v, rfl⟩ := List.length_eq_one_iff.mp fits
    exact inContext_safe (safe v)
  | binary run =>
    obtain ⟨v, w, rfl⟩ := List.length_eq_two.mp fits
    exact inContext_safe (safe v w)

theorem length_evaluateAll {library : Library} {env : Environment} {es : List Expr}
    {values : List (Value Float)} (evaluated : evaluateAll library env es = .ok values) :
    values.length = es.length := by
  induction es generalizing values with
  | nil =>
    rw [evaluateAll] at evaluated
    cases evaluated
    rfl
  | cons e rest ih =>
    rw [evaluateAll] at evaluated
    obtain ⟨value, _, evaluated⟩ := bind_eq_ok evaluated
    obtain ⟨later, found, evaluated⟩ := bind_eq_ok evaluated
    cases evaluated
    rw [List.length_cons, List.length_cons, ih found]

theorem set_ok {m : DenseMatrix Float} {i j : Nat} (row : i < m.rows) (col : j < m.cols)
    (x : Float) : ∃ next, m.set i j x = .ok next ∧ next.rows = m.rows ∧ next.cols = m.cols := by
  obtain ⟨rows, cols, g⟩ := m
  exact ⟨_, DenseMatrix.set_ofGrid g ⟨i, row⟩ ⟨j, col⟩ x, rfl, rfl⟩

theorem shape_set {m next : DenseMatrix Float} {i j : Int} {x : Float}
    (written : m.set i j x = .ok next) : next.rows = m.rows ∧ next.cols = m.cols := by
  obtain ⟨position, _, written⟩ := bind_eq_ok written
  cases written
  exact ⟨rfl, rfl⟩

theorem inContext_ok {β : Type} {outcome : Except Fault β} {b : β}
    (reached : inContext (liftM outcome) = .ok b) : outcome = .ok b := by
  cases outcome with
  | error fault => cases reached
  | ok value =>
    cases reached
    rfl

theorem shape_fillRow {library : Library} {env : Environment} {i j : Nat} {row : List Expr}
    {m filled : DenseMatrix Float} (written : fillRow library env i j row m = .ok filled) :
    filled.rows = m.rows ∧ filled.cols = m.cols := by
  induction row generalizing j m with
  | nil =>
    rw [fillRow] at written
    cases written
    exact ⟨rfl, rfl⟩
  | cons e rest ih =>
    rw [fillRow] at written
    obtain ⟨value, _, written⟩ := bind_eq_ok written
    obtain ⟨x, _, written⟩ := bind_eq_ok written
    obtain ⟨next, set, written⟩ := bind_eq_ok written
    obtain ⟨rows, cols⟩ := shape_set (inContext_ok set)
    rw [← rows, ← cols]
    exact ih written

mutual

theorem evaluate_safe {library : Library} (documented : library.Documented) (env : Environment) :
    ∀ e : Expr, FailsOnly (Stop.IsFault Refused) (evaluate library env e)
  | .number x => by
    rw [evaluate]
    exact failsOnly_ok _
  | .variable name => by
    rw [evaluate]
    split
    · exact failsOnly_ok _
    · exact fun same => by cases same
  | .matrix rows => by
    rw [evaluate, DenseMatrix.new_natCast, inContext_lift_ok, ok_bind]
    refine FailsOnly.bind ?_ fun _ _ => failsOnly_ok _
    exact fillRows_safe documented env rows rfl (Nat.zero_add rows.length).le
  | .call name arguments => by
    rw [evaluate]
    split
    · exact fun same => by cases same
    · next function known =>
      split
      · next fits =>
        refine (evaluateAll_safe documented env arguments).bind fun values evaluated => ?_
        exact applyBuiltin_safe (builtin?_safe documented known)
          ((length_evaluateAll evaluated).trans fits)
      · exact fun same => by cases same
  | .unary operator operand => by
    rw [evaluate]
    exact (evaluate_safe documented env operand).bind fun v _ =>
      inContext_safe (applyUnary_safe operator v)
  | .binary operator left right => by
    rw [evaluate]
    exact (evaluate_safe documented env left).bind fun v _ =>
      (evaluate_safe documented env right).bind fun w _ =>
        inContext_safe (applyBinary_safe documented operator v w)

theorem evaluateAll_safe {library : Library} (documented : library.Documented) (env : Environment) :
    ∀ es : List Expr, FailsOnly (Stop.IsFault Refused) (evaluateAll library env es)
  | [] => by
    rw [evaluateAll]
    exact failsOnly_ok _
  | e :: rest => by
    rw [evaluateAll]
    exact (evaluate_safe documented env e).bind fun _ _ =>
      (evaluateAll_safe documented env rest).bind fun _ _ => failsOnly_ok _

theorem fillRow_safe {library : Library} (documented : library.Documented) (env : Environment)
    {i : Nat} : ∀ (row : List Expr) {j : Nat} {m : DenseMatrix Float}, i < m.rows →
      j + row.length ≤ m.cols → FailsOnly (Stop.IsFault Refused) (fillRow library env i j row m)
  | [], _, _, _, _ => by
    rw [fillRow]
    exact failsOnly_ok _
  | e :: rest, j, m, inside, fits => by
    rw [List.length_cons] at fits
    rw [fillRow]
    refine (evaluate_safe documented env e).bind fun v _ => ?_
    refine (cell_safe v).lift.bind fun x _ => ?_
    obtain ⟨next, written, rows, cols⟩ := set_ok inside (by omega : j < m.cols) x
    rw [written]
    exact fillRow_safe documented env rest (rows ▸ inside) (by omega)

theorem fillRows_safe {library : Library} (documented : library.Documented) (env : Environment)
    {width : Nat} : ∀ (rows : List (List Expr)) {i : Nat} {m : DenseMatrix Float},
      m.cols = width → i + rows.length ≤ m.rows →
        FailsOnly (Stop.IsFault Refused) (fillRows library env width i rows m)
  | [], _, _, _, _ => by
    rw [fillRows]
    exact failsOnly_ok _
  | row :: rest, i, m, same, fits => by
    rw [List.length_cons] at fits
    rw [fillRows]
    split
    · next length =>
      refine (fillRow_safe documented env row (by omega : i < m.rows) (by omega)).bind
        fun next written => ?_
      -- What a row was given does not matter to the rows after it, only that the shape stayed.
      obtain ⟨rows, cols⟩ := shape_fillRow written
      exact fillRows_safe documented env rest (cols.trans same) (by omega)
    · exact fun same => by cases same

end

/-- The matrix of the given shape whose cells start with the given ones and are zero then. -/
def padded (rows cols : Nat) (cells : List Float) : DenseMatrix Float :=
  DenseMatrix.ofGrid (Grid.ofFn fun (i : Fin rows) (j : Fin cols) =>
    cells.getD (Grid.offset i j).val 0)

theorem new_eq_padded (rows cols : Nat) :
    DenseMatrix.new (rows : Int) (cols : Int) none = .ok (padded rows cols []) := by
  rw [DenseMatrix.new_natCast]
  rfl

theorem getD_concat (cells : List Float) (x : Float) (k : Nat) :
    (cells ++ [x]).getD k 0 = if k = cells.length then x else cells.getD k 0 := by
  grind

theorem set_padded {rows cols i j : Nat} (row : i < rows) (col : j < cols) {cells : List Float}
    (written : cells.length = i * cols + j) (x : Float) :
    (padded rows cols cells).set i j x = .ok (padded rows cols (cells ++ [x])) := by
  refine (DenseMatrix.set_ofGrid _ ⟨i, row⟩ ⟨j, col⟩ x).trans ?_
  refine congrArg (fun g => Except.ok (DenseMatrix.ofGrid g)) (Grid.ext fun r c => ?_)
  have here : r = ⟨i, row⟩ ∧ c = ⟨j, col⟩ ↔ (Grid.offset r c).val = cells.length := by
    constructor
    · rintro ⟨rfl, rfl⟩
      exact written.symm
    · intro place
      have same : Grid.offset r c = Grid.offset ⟨i, row⟩ ⟨j, col⟩ := Fin.ext (place.trans written)
      exact ⟨by simpa [Grid.rowAt_offset] using congrArg Grid.rowAt same,
        by simpa [Grid.colAt_offset] using congrArg Grid.colAt same⟩
  rw [Grid.get_set, Grid.get_ofFn, Grid.get_ofFn, getD_concat]
  simp only [here]

theorem ofList_eq_padded {rows cols : Nat} {cells : List Float}
    (count : cells.length = rows * cols) :
    DenseMatrix.ofList rows cols cells = .ok (padded rows cols cells) := by
  refine (dif_pos count).trans ?_
  refine congrArg (fun g => Except.ok (DenseMatrix.ofGrid g)) (Grid.ext fun r c => ?_)
  have inside : (Grid.offset r c).val < cells.length := (Grid.offset r c).isLt.trans_eq count.symm
  rw [Grid.get_ofFn, List.getD_eq_getElem?_getD, List.getElem?_eq_getElem inside]
  rfl

theorem ofRows_padded {cells : List (List Float)} {width : Nat}
    (empty : cells = [] → width = 0) (widths : ∀ row ∈ cells, row.length = width) :
    DenseMatrix.ofRows cells = .ok (padded cells.length width cells.flatten) := by
  cases cells with
  | nil =>
    rw [empty rfl]
    rfl
  | cons head rest =>
    have equal : head.length = width := widths head List.mem_cons_self
    subst equal
    have even : (head :: rest).findIdx? (fun row => row.length != head.length) = none := by
      rw [List.findIdx?_eq_none_iff]
      intro row member
      simp [widths row member]
    have count : (head :: rest).flatten.length = (head :: rest).length * head.length := by
      rw [List.length_flatten, List.map_congr_left widths, List.map_const', List.sum_replicate,
        smul_eq_mul]
    rw [DenseMatrix.ofRows]
    simp only [even]
    exact ofList_eq_padded count

theorem inContext_lift {β : Type} (c : Calculation Fault β) :
    inContext (liftM c.outcome) = liftM (lift c).outcome := by
  rw [lift, Calculation.mapError]
  cases c.outcome <;> rfl

theorem applyBuiltin_agrees {function : Builtin} {plain : MatrixCalculator.Builtin}
    (agrees : function.Agrees plain) (name : String) {values : List (Value Float)}
    (fits : values.length = function.arity) :
    applyBuiltin function values =
      liftM (MatrixCalculator.applyBuiltin name plain values).outcome := by
  cases function with
  | unary run =>
    obtain ⟨v, rfl⟩ := List.length_eq_one_iff.mp fits
    cases plain with
    | unary f => exact (congrArg inContext (agrees v)).trans (inContext_lift _)
    | binary f => exact agrees.elim
  | binary run =>
    obtain ⟨v, w, rfl⟩ := List.length_eq_two.mp fits
    cases plain with
    | unary f => exact agrees.elim
    | binary f => exact (congrArg inContext (agrees v w)).trans (inContext_lift _)

theorem arity_agrees {function : Builtin} {plain : MatrixCalculator.Builtin}
    (agrees : function.Agrees plain) : plain.arity = function.arity := by
  cases function <;> cases plain <;> first | rfl | exact agrees.elim

theorem length_evaluateRow {env : Environment} {row : List Expr} {cells : List Float}
    (evaluated : (evaluateRow env row).outcome = .ok cells) : cells.length = row.length := by
  induction row generalizing cells with
  | nil =>
    rw [evaluateRow] at evaluated
    cases evaluated
    rfl
  | cons e rest ih =>
    rw [evaluateRow, Calculation.outcome_bind] at evaluated
    obtain ⟨value, _, evaluated⟩ := bind_eq_ok evaluated
    rw [Calculation.outcome_bind] at evaluated
    obtain ⟨x, _, evaluated⟩ := bind_eq_ok evaluated
    rw [Calculation.outcome_bind] at evaluated
    obtain ⟨later, found, evaluated⟩ := bind_eq_ok evaluated
    cases evaluated
    rw [List.length_cons, List.length_cons, ih found]

theorem widths_evaluateRows {env : Environment} {width : Nat} {rows : List (List Expr)}
    {cells : List (List Float)} (evaluated : (evaluateRows env width rows).outcome = .ok cells) :
    cells.length = rows.length ∧ ∀ row ∈ cells, row.length = width := by
  induction rows generalizing cells with
  | nil =>
    rw [evaluateRows] at evaluated
    cases evaluated
    simp
  | cons row rest ih =>
    rw [evaluateRows] at evaluated
    split at evaluated
    · next fits =>
      rw [Calculation.outcome_bind] at evaluated
      obtain ⟨head, found, evaluated⟩ := bind_eq_ok evaluated
      rw [Calculation.outcome_bind] at evaluated
      obtain ⟨later, continued, evaluated⟩ := bind_eq_ok evaluated
      cases evaluated
      obtain ⟨height, widths⟩ := ih continued
      refine ⟨by simp [height], ?_⟩
      rw [List.forall_mem_cons]
      exact ⟨(length_evaluateRow found).trans fits, widths⟩
    · cases evaluated

theorem cell_eq (v : Value Float) : cell v = (MatrixCalculator.cell v).outcome := by
  cases v <;> rfl

mutual

theorem evaluate_running (env : Environment) :
    ∀ e : Expr, evaluate .running env e = liftM (MatrixCalculator.evaluate env e).outcome
  | .number x => by
    rw [evaluate, MatrixCalculator.evaluate]
    rfl
  | .variable name => by
    rw [evaluate, MatrixCalculator.evaluate]
    cases env.lookup name <;> rfl
  | .matrix rows => by
    rw [evaluate, MatrixCalculator.evaluate, new_eq_padded]
    have start : ([] : List Float).length = 0 * (rows.head?.map List.length).getD 0 :=
      (Nat.zero_mul _).symm
    have filled := fillRows_running env _ rows start (Nat.zero_add rows.length).le
    rw [inContext_lift_ok, ok_bind, filled, Calculation.outcome_bind, lift_bind, bind_assoc]
    cases evaluated : (evaluateRows env ((rows.head?.map List.length).getD 0) rows).outcome with
    | error fault => rfl
    | ok cells =>
      obtain ⟨height, widths⟩ := widths_evaluateRows evaluated
      rw [lift_ok, ok_bind, ok_bind, List.nil_append]
      rw [ok_bind, Calculation.outcome_bind, lift, Calculation.mapError,
        Calculation.outcome_ofExcept, ofRows_padded ?_ widths, height]
      · rfl
      · rintro rfl
        rw [List.eq_nil_of_length_eq_zero height.symm]
        rfl
  | .call name arguments => by
    rw [evaluate, MatrixCalculator.evaluate]
    have related := builtin?_running name
    revert related
    generalize builtin? .running name = checked
    generalize MatrixCalculator.builtin? name = plain
    intro related
    cases related with
    | none => rfl
    | some agrees =>
      dsimp only
      rw [arity_agrees agrees]
      split
      · next fits =>
        have evaluated := evaluateAll_running env arguments
        rw [evaluated, Calculation.outcome_bind, lift_bind]
        cases all : (MatrixCalculator.evaluateAll env arguments).outcome with
        | error fault => rfl
        | ok values =>
          rw [all] at evaluated
          exact applyBuiltin_agrees agrees name ((length_evaluateAll evaluated).trans fits)
      · rfl
  | .unary operator operand => by
    rw [evaluate, MatrixCalculator.evaluate, evaluate_running env operand, Calculation.outcome_bind,
      lift_bind]
    simp only [applyUnary_eq, inContext_lift]
  | .binary operator left right => by
    rw [evaluate, MatrixCalculator.evaluate, evaluate_running env left,
      evaluate_running env right]
    simp only [Calculation.outcome_bind, lift_bind, applyBinary_running, inContext_lift]

theorem evaluateAll_running (env : Environment) :
    ∀ es : List Expr,
      evaluateAll .running env es = liftM (MatrixCalculator.evaluateAll env es).outcome
  | [] => by
    rw [evaluateAll, MatrixCalculator.evaluateAll]
    rfl
  | e :: rest => by
    rw [evaluateAll, MatrixCalculator.evaluateAll, evaluate_running env e,
      evaluateAll_running env rest]
    simp only [Calculation.outcome_bind, lift_bind]
    rfl

theorem fillRow_running (env : Environment) {height width i : Nat} (inside : i < height) :
    ∀ (row : List Expr) {j : Nat} {data : List Float}, data.length = i * width + j →
      j + row.length ≤ width →
      fillRow .running env i j row (padded height width data) =
        liftM (evaluateRow env row).outcome >>= fun cells =>
          .ok (padded height width (data ++ cells))
  | [], j, data, _, _ => by
    rw [fillRow, evaluateRow, Calculation.outcome_pure, lift_ok, ok_bind, List.append_nil]
  | e :: rest, j, data, written, fits => by
    rw [List.length_cons] at fits
    rw [fillRow, evaluateRow, evaluate_running env e]
    simp only [Calculation.outcome_bind, lift_bind, bind_assoc, cell_eq]
    refine bind_congr fun v => bind_congr fun x => ?_
    -- The cell that is written is the first one that `data` does not reach yet.
    rw [set_padded inside (by omega) written, inContext_lift_ok, ok_bind]
    rw [fillRow_running env inside rest (by simp [written, Nat.add_assoc]) (by omega)]
    simp only [List.append_assoc, Calculation.outcome_pure]
    rfl

theorem fillRows_running (env : Environment) {height : Nat} (width : Nat) :
    ∀ (rows : List (List Expr)) {i : Nat} {data : List Float}, data.length = i * width →
      i + rows.length ≤ height →
      fillRows .running env width i rows (padded height width data) =
        liftM (evaluateRows env width rows).outcome >>= fun cells =>
          .ok (padded height width (data ++ cells.flatten))
  | [], i, data, _, _ => by
    rw [fillRows, evaluateRows, Calculation.outcome_pure, lift_ok, ok_bind, List.flatten_nil,
      List.append_nil]
  | row :: rest, i, data, written, fits => by
    rw [List.length_cons] at fits
    rw [fillRows, evaluateRows]
    split
    · next same =>
      rw [fillRow_running env (by omega : i < height) row written (by omega)]
      simp only [Calculation.outcome_bind, lift_bind, bind_assoc]
      cases evaluated : (evaluateRow env row).outcome with
      | error fault => rfl
      | ok cells =>
        have length : cells.length = width := (length_evaluateRow evaluated).trans same
        rw [lift_ok, ok_bind, ok_bind, ok_bind,
          fillRows_running env width rest (by simp [written, length, Nat.succ_mul]) (by omega)]
        simp only [List.append_assoc]
        rfl
    · rfl

end

end MatrixCalculator.Checked
