import MatrixCalculator.Proofs.Checked.Elementary
import MatrixCalculator.Proofs.Checked.Solution
import MatrixCalculator.Session.Evaluation

/-! Checked operators and named functions. Whatever values they are given, they refuse them by a
fault of the input or have a result, as long as the library refuses only what it is documented to
refuse; over the functions that the calculator runs on they are the running ones. -/
namespace MatrixCalculator.Checked

open MatrixCalculator.Language

def reciprocal : Value Float → Except Fault (Value Float)
  | .scalar x => do
    if ← isZero x then throw .reciprocalOfZero
    else return .scalar (← divide 1 x)
  | .matrix m => return .matrix (← inverse m)

def quotient (left right : Value Float) : Except Fault (Value Float) := do
  let inverted ← reciprocal right
  left.multiply inverted

def leftQuotient (left right : Value Float) : Except Fault (Value Float) := do
  let inverted ← reciprocal left
  inverted.multiply right

def raise (library : Library) : Value Float → Value Float → Except (Stop Fault) (Value Float)
  | _, .matrix _ => .error (.fault .matrixExponent)
  | .matrix m, .scalar n => return .matrix (← power m n)
  | .scalar x, .scalar n => return .scalar (← scalarPower library x n)

def determinantOf : Value Float → Except Fault (Value Float)
  | .scalar _ => .error (.notMatrix .determinant)
  | .matrix m => return .scalar (← determinant m)

inductive Builtin
  | unary (run : Value Float → Except (Stop Fault) (Value Float))
  | binary (run : Value Float → Value Float → Except (Stop Fault) (Value Float))

def Builtin.arity : Builtin → Nat
  | .unary _ => 1
  | .binary _ => 2

def builtin? (library : Library) (name : String) : Option Builtin :=
  match name with
  | "abs" => some (.unary fun v => liftM v.magnitude)
  | "sqrt" => some (.unary (root library))
  | "pow" => some (.binary (raise library))
  | "inv" => some (.unary fun v => liftM (reciprocal v))
  | "factorial" => some (.unary factorial)
  | "sin" => some (.unary (ofAngle .sine library.sine))
  | "cos" => some (.unary (ofAngle .cosine library.cosine))
  | "tan" => some (.unary (ofAngle .tangent library.tangent))
  | "log" => some (.unary (logarithm library))
  | "transpose" => some (.unary fun v => liftM v.transpose)
  | "det" => some (.unary fun v => liftM (determinantOf v))
  | "linsolve" => some (.binary solveUniquely)
  | _ => none

def applyUnary : UnaryOperator → Value Float → Except (Stop Fault) (Value Float)
  | .plus, v => return v
  | .minus, v => return v.negate
  | .factorial, v => factorial v
  | .transpose, v => liftM v.transpose

def applyBinary (library : Library) :
    BinaryOperator → Value Float → Value Float → Except (Stop Fault) (Value Float)
  | .add, v, w => liftM (v.add w)
  | .subtract, v, w => liftM (v.subtract w)
  | .multiply, v, w => liftM (v.multiply w)
  | .divide, v, w => liftM (quotient v w)
  | .leftDivide, v, w => liftM (leftQuotient v w)
  | .power, v, w => raise library v w

theorem sum_safe (a b : DenseMatrix Float) : FailsOnly UserFault (a.add b) := by
  unfold DenseMatrix.add
  split
  · exact failsOnly_ok _
  · rfl

theorem product_safe (a b : DenseMatrix Float) : FailsOnly UserFault (a.mul b) := by
  unfold DenseMatrix.mul
  split
  · exact failsOnly_ok _
  · rfl

theorem add_safe : ∀ v w : Value Float, FailsOnly UserFault (v.add w)
  | .scalar _, .scalar _ => failsOnly_ok _
  | .matrix a, .matrix b => (sum_safe a b).bind fun _ _ => failsOnly_ok _
  | .scalar _, .matrix _ => rfl
  | .matrix _, .scalar _ => rfl

theorem multiply_safe : ∀ v w : Value Float, FailsOnly UserFault (v.multiply w)
  | .scalar _, .scalar _ => failsOnly_ok _
  | .matrix a, .matrix b => (product_safe a b).bind fun _ _ => failsOnly_ok _
  | .scalar _, .matrix _ => failsOnly_ok _
  | .matrix _, .scalar _ => failsOnly_ok _

theorem transpose_safe : ∀ v : Value Float, FailsOnly UserFault v.transpose
  | .scalar _ => rfl
  | .matrix _ => failsOnly_ok _

theorem magnitude_safe (v : Value Float) : FailsOnly UserFault v.magnitude :=
  (real_safe .magnitude v).bind fun _ _ => failsOnly_ok _

theorem reciprocal_cases (v : Value Float) :
    reciprocal v = v.inverse.outcome ∧ FailsOnly UserFault (reciprocal v) := by
  cases v with
  | scalar x =>
    rw [reciprocal, isZero_eq_ok, ok_bind, Value.inverse]
    cases small : MatrixCalculator.isZero x with
    | true => exact ⟨rfl, rfl⟩
    | false =>
      have nonzero := ne_zero_of_not_isZero small
      rw [if_neg Bool.false_ne_true, if_neg Bool.false_ne_true, divide_eq_ok 1 nonzero,
        Grid.divisor_of_nonzero nonzero]
      exact ⟨rfl, failsOnly_ok _⟩
  | matrix m =>
    have plain : (Value.inverse (.matrix m)).outcome =
        m.inverse.outcome >>= fun inverted => .ok (.matrix inverted) := Calculation.outcome_bind _ _
    rw [plain, ← inverse_eq]
    refine ⟨rfl, FailsOnly.bind ?_ fun _ _ => failsOnly_ok _⟩
    rw [inverse_eq]
    exact inverse_safe m

theorem quotient_cases (v w : Value Float) :
    quotient v w = (v.divide w).outcome ∧ FailsOnly UserFault (quotient v w) := by
  obtain ⟨plain, safe⟩ := reciprocal_cases w
  refine ⟨?_, safe.bind fun inverted _ => multiply_safe v inverted⟩
  rw [quotient, Value.divide, Calculation.outcome_bind, plain]
  rfl

theorem leftQuotient_cases (v w : Value Float) :
    leftQuotient v w = (v.leftDivide w).outcome ∧ FailsOnly UserFault (leftQuotient v w) := by
  obtain ⟨plain, safe⟩ := reciprocal_cases v
  refine ⟨?_, safe.bind fun inverted _ => multiply_safe inverted w⟩
  rw [leftQuotient, Value.leftDivide, Calculation.outcome_bind, plain]
  rfl

theorem determinantOf_cases (v : Value Float) :
    determinantOf v = v.determinant.outcome ∧ FailsOnly UserFault (determinantOf v) := by
  cases v with
  | scalar x => exact ⟨rfl, rfl⟩
  | matrix m =>
    have plain : (Value.determinant (.matrix m)).outcome =
        m.determinant.outcome >>= fun size => .ok (.scalar size) := Calculation.outcome_bind _ _
    rw [plain, ← determinant_eq]
    refine ⟨rfl, FailsOnly.bind ?_ fun _ _ => failsOnly_ok _⟩
    rw [determinant_eq]
    exact determinant_safe m

theorem raise_safe {library : Library} (documented : library.Documented) :
    ∀ v w : Value Float, FailsOnly IsUserError (raise library v w)
  | .scalar _, .matrix _ => rfl
  | .matrix _, .matrix _ => rfl
  | .scalar x, .scalar y => (scalarPower_safe documented x y).bind fun _ _ => failsOnly_ok _
  | .matrix m, .scalar y => by
    obtain ⟨plain, safe⟩ := power_cases m y
    refine FailsOnly.bind ?_ fun _ _ => failsOnly_ok _
    rw [plain]
    exact safe.lift

theorem raise_running : ∀ v w : Value Float,
    raise .running v w = liftM (Value.power v w).outcome
  | .scalar _, .matrix _ => rfl
  | .matrix _, .matrix _ => rfl
  | .scalar x, .scalar y => by
    have plain : (Value.power (.scalar x) (.scalar y)).outcome =
        Value.scalarPower x y >>= fun p => .ok (.scalar p) := Calculation.outcome_bind _ _
    rw [raise, scalarPower_running, plain, lift_bind]
    rfl
  | .matrix m, .scalar y => by
    have plain : (Value.power (.matrix m) (.scalar y)).outcome =
        (m.power y).outcome >>= fun p => .ok (.matrix p) := Calculation.outcome_bind _ _
    rw [raise, (power_cases m y).1, plain, lift_bind]
    rfl

theorem applyUnary_safe (operator : UnaryOperator) (v : Value Float) :
    FailsOnly IsUserError (applyUnary operator v) := by
  cases operator with
  | plus => exact failsOnly_ok v
  | minus => exact failsOnly_ok v.negate
  | factorial => exact factorial_safe v
  | transpose => exact (transpose_safe v).lift

theorem applyUnary_eq (operator : UnaryOperator) (v : Value Float) :
    applyUnary operator v = liftM (MatrixCalculator.applyUnary operator v).outcome := by
  cases operator with
  | factorial => exact factorial_eq v
  | _ => rfl

theorem applyBinary_safe {library : Library} (documented : library.Documented)
    (operator : BinaryOperator) (v w : Value Float) :
    FailsOnly IsUserError (applyBinary library operator v w) := by
  cases operator with
  | add => exact (add_safe v w).lift
  | subtract => exact (add_safe v w.negate).lift
  | multiply => exact (multiply_safe v w).lift
  | divide => exact (quotient_cases v w).2.lift
  | leftDivide => exact (leftQuotient_cases v w).2.lift
  | power => exact raise_safe documented v w

theorem applyBinary_running (operator : BinaryOperator) (v w : Value Float) :
    applyBinary .running operator v w =
      liftM (MatrixCalculator.applyBinary operator v w).outcome := by
  cases operator with
  | divide => exact congrArg liftM (quotient_cases v w).1
  | leftDivide => exact congrArg liftM (leftQuotient_cases v w).1
  | power => exact raise_running v w
  | _ => rfl

def Builtin.Safe : Builtin → Prop
  | .unary run => ∀ v, FailsOnly IsUserError (run v)
  | .binary run => ∀ v w, FailsOnly IsUserError (run v w)

theorem builtin?_safe {library : Library} (documented : library.Documented) {name : String}
    {function : Builtin} (known : builtin? library name = some function) : function.Safe := by
  unfold builtin? at known
  split at known <;> cases known
  · exact fun v => (magnitude_safe v).lift
  · exact root_safe documented
  · exact raise_safe documented
  · exact fun v => (reciprocal_cases v).2.lift
  · exact factorial_safe
  · exact ofAngle_safe .sine documented.sine
  · exact ofAngle_safe .cosine documented.cosine
  · exact ofAngle_safe .tangent documented.tangent
  · exact logarithm_safe documented
  · exact fun v => (transpose_safe v).lift
  · exact fun v => (determinantOf_cases v).2.lift
  · exact fun v w => (solveUniquely_cases v w).2

def Builtin.Agrees : Builtin → MatrixCalculator.Builtin → Prop
  | .unary run, .unary plain => ∀ v, run v = liftM (plain v).outcome
  | .binary run, .binary plain => ∀ v w, run v w = liftM (plain v w).outcome
  | _, _ => False

theorem builtin?_running (name : String) :
    Option.Rel Builtin.Agrees (builtin? .running name) (MatrixCalculator.builtin? name) := by
  unfold builtin?
  split
  · exact .some fun _ => rfl
  · exact .some root_running
  · exact .some raise_running
  · exact .some fun v => congrArg liftM (reciprocal_cases v).1
  · exact .some factorial_eq
  · exact .some (ofAngle_running .sine Float.sin)
  · exact .some (ofAngle_running .cosine Float.cos)
  · exact .some (ofAngle_running .tangent Float.tan)
  · exact .some logarithm_running
  · exact .some fun _ => rfl
  · exact .some fun v => congrArg liftM (determinantOf_cases v).1
  · exact .some fun v w => (solveUniquely_cases v w).1
  · have unknown : MatrixCalculator.builtin? name = none := by
      unfold MatrixCalculator.builtin?
      split <;> first | rfl | contradiction
    rw [unknown]
    exact .none

end MatrixCalculator.Checked
