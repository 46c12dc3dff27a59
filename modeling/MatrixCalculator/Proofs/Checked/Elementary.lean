import MatrixCalculator.Proofs.Checked.Arithmetic
import MatrixCalculator.Proofs.Checked.Loop
import MatrixCalculator.Value.Elementary

/-! Checked elementary functions. The functions of the machine's library refuse arguments outside
their domains and powers that are too large. -/
namespace MatrixCalculator.Checked

structure Library where
  root : Float → Except MachineError Float
  logarithm : Float → Except MachineError Float
  sine : Float → Except MachineError Float
  cosine : Float → Except MachineError Float
  tangent : Float → Except MachineError Float
  power : Float → Float → Except MachineError Float

namespace Library

/-- What a library is documented to refuse. A power has no value for a zero base with a negative
exponent and for a negative base with an exponent that is no whole number; any power may be too
large. -/
structure Documented (library : Library) : Prop where
  root : ∀ x, FailsOnly (fun _ => x < 0) (library.root x)
  logarithm : ∀ x, FailsOnly (fun _ => x ≤ 0) (library.logarithm x)
  sine : ∀ x, FailsOnly (fun _ => x.isInf = true) (library.sine x)
  cosine : ∀ x, FailsOnly (fun _ => x.isInf = true) (library.cosine x)
  tangent : ∀ x, FailsOnly (fun _ => x.isInf = true) (library.tangent x)
  power : ∀ x y, FailsOnly
    (fun e => e ≠ .overflow →
      ((x == 0) = true ∧ y < 0) ∨ (x < 0 ∧ ∀ n : Int, y ≠ Float.ofInt n))
    (library.power x y)

/-- The functions that the calculator runs on. They refuse nothing. -/
def running : Library where
  root x := .ok x.sqrt
  logarithm x := .ok x.log
  sine x := .ok x.sin
  cosine x := .ok x.cos
  tangent x := .ok x.tan
  power x y := .ok (Float.pow x y)

def outside (refused : Prop) [Decidable refused] (result : Float) : Except MachineError Float :=
  if refused then .error .domain else .ok result

open Classical in
/-- A library that refuses whatever it may, and an infinite power of finite numbers as too large. -/
noncomputable def strict : Library where
  root x := outside (x < 0) x.sqrt
  logarithm x := outside (x ≤ 0) x.log
  sine x := outside (x.isInf = true) x.sin
  cosine x := outside (x.isInf = true) x.cos
  tangent x := outside (x.isInf = true) x.tan
  power x y :=
    let result := Float.pow x y
    if result.isInf = true ∧ x.isFinite = true ∧ y.isFinite = true ∧ (x == 0) = false then
      .error .overflow
    else outside (((x == 0) = true ∧ y < 0) ∨ (x < 0 ∧ ∀ n : Int, y ≠ Float.ofInt n)) result

theorem outside_documented (refused : Prop) [Decidable refused] (result : Float) :
    FailsOnly (fun _ => refused) (outside refused result) := by
  unfold outside
  split
  · assumption
  · exact failsOnly_ok result

theorem running_documented : running.Documented :=
  ⟨fun _ => trivial, fun _ => trivial, fun _ => trivial, fun _ => trivial, fun _ => trivial,
    fun _ _ => trivial⟩

theorem strict_documented : strict.Documented where
  root _ := outside_documented _ _
  logarithm _ := outside_documented _ _
  sine _ := outside_documented _ _
  cosine _ := outside_documented _ _
  tangent _ := outside_documented _ _
  power x y := by
    classical
    unfold strict
    dsimp only
    split
    · exact fun large => absurd rfl large
    · unfold outside
      split
      · next refused => exact fun _ => refused
      · exact failsOnly_ok _

end Library

def wholeExponent (exponent : Float) : Except (Stop Fault) Float := do
  if ← isIntegral exponent then ofInt (← nearest exponent)
  else throw (.fault .fractionalPowerOfNegative)

/-- What a power is that is too large: infinite, and negative for an odd power of a negative
number. -/
def saturated (base exponent : Float) : Except (Stop Fault) Float := do
  if base < 0 then
    let n ← truncated exponent
    return if n % 2 = 1 then -(1 / 0) else 1 / 0
  else return 1 / 0

def raised (library : Library) (base exponent : Float) : Except (Stop Fault) Float :=
  match library.power base exponent with
  | .ok x => .ok x
  | .error .overflow => saturated base exponent
  | .error e => .error (.machine e)

def scalarPower (library : Library) (base exponent : Float) : Except (Stop Fault) Float := do
  if (← isZero base) && exponent < 0 then throw (.fault .negativePowerOfZero)
  else if base < 0 then raised library base (← wholeExponent exponent)
  else raised library base exponent

def root (library : Library) (v : Value Float) : Except (Stop Fault) (Value Float) := do
  let x ← v.real .root
  if x < 0 then throw (.fault .rootOfNegative)
  else return .scalar (← library.root x)

def product (n : Nat) : Except MachineError Float :=
  (between 2 (n + 1)).foldlM (fun total (i : Nat) => return total * (← ofInt i)) 1

def factorial (v : Value Float) : Except (Stop Fault) (Value Float) := do
  let x ← v.real .factorial
  if x < 0 then throw (.fault .factorialOfNegative)
  else if x.isNaN then return .scalar x
  else if x > Value.largestFactorial then return .scalar (1 / 0)
  else
    let n ← truncated x
    return .scalar (← product n.toNat)

def ofAngle (function : ScalarFunction) (f : Float → Except MachineError Float) (v : Value Float) :
    Except (Stop Fault) (Value Float) := do
  let x ← v.real function
  if x.isInf then throw (.fault (.infiniteAngle function))
  else return .scalar (← f x)

def logarithm (library : Library) (v : Value Float) : Except (Stop Fault) (Value Float) := do
  let x ← v.real .logarithm
  if x ≤ 0 then throw (.fault .logarithmOfNonpositive)
  else return .scalar (← library.logarithm x)

theorem wholeExponent_eq (exponent : Float) :
    wholeExponent exponent =
      match Scalar.nearest exponent, MatrixCalculator.isIntegral exponent with
      | some n, true => .ok (Scalar.ofInt n)
      | _, _ => .error (.fault .fractionalPowerOfNegative) := by
  unfold wholeExponent
  cases known : Double.exact exponent with
  | none =>
    have infinite : Scalar.exact exponent = none := known
    simp [MatrixCalculator.isIntegral, Scalar.nearest, infinite]
    rfl
  | some value =>
    have finite : Scalar.exact exponent = some value := known
    simp [Scalar.nearest, finite, nearest, exact, known, ofInt_nearest known]
    cases MatrixCalculator.isIntegral exponent <;> rfl

theorem wholeExponent_finite {exponent w : Float} (whole : wholeExponent exponent = .ok w) :
    ∃ n : Int, w = Float.ofInt n ∧ (Double.exact w).isSome := by
  rw [wholeExponent_eq] at whole
  split at whole
  · next n rounded integral =>
    cases whole
    refine ⟨n, rfl, ?_⟩
    rw [MatrixCalculator.isIntegral, rounded] at integral
    refine Double.isSome_of_nearlyEqual ?_ integral
    rw [Scalar.nearest, Option.map_eq_some_iff] at rounded
    obtain ⟨value, known, _⟩ := rounded
    have finite : Double.exact exponent = some value := known
    rw [finite]
    rfl
  · cases whole

theorem saturated_ok {base exponent : Float} (finite : base < 0 → (Double.exact exponent).isSome) :
    ∃ x, saturated base exponent = .ok x := by
  unfold saturated
  split
  · next negative =>
    obtain ⟨value, known⟩ := Option.isSome_iff_exists.mp (finite negative)
    simp [truncated, exact, known]
  · exact ⟨_, rfl⟩

theorem raised_safe {library : Library} (documented : library.Documented) {base exponent : Float}
    (zero : (base == 0) = true → ¬exponent < 0)
    (negative : base < 0 → ∃ n : Int, exponent = Float.ofInt n ∧ (Double.exact exponent).isSome) :
    FailsOnly IsUserError (raised library base exponent) := by
  have refused := documented.power base exponent
  unfold raised
  split
  · exact failsOnly_ok _
  · obtain ⟨x, reached⟩ := saturated_ok fun below => (negative below).elim fun n found => found.2
    rw [reached]
    exact failsOnly_ok x
  · next e large failed =>
    rw [failed] at refused
    rcases refused large with ⟨null, below⟩ | ⟨below, fractional⟩
    · exact absurd below (zero null)
    · obtain ⟨n, whole, _⟩ := negative below
      exact absurd whole (fractional n)

theorem isZero_of_beq {x : Float} (zero : (x == 0) = true) :
    MatrixCalculator.isZero x = true := by
  by_contra nonzero
  rw [ne_zero_of_not_isZero (Bool.eq_false_iff.mpr nonzero)] at zero
  contradiction

theorem scalarPower_safe {library : Library} (documented : library.Documented)
    (base exponent : Float) : FailsOnly IsUserError (scalarPower library base exponent) := by
  unfold scalarPower
  rw [isZero_eq_ok, lift_ok, ok_bind]
  split
  · rfl
  · next guarded =>
    split
    · next below =>
      apply FailsOnly.bind
      · rw [wholeExponent_eq]
        split
        · exact failsOnly_ok _
        · rfl
      · intro w whole
        apply raised_safe documented
        · exact fun zero => absurd below (Double.not_lt_of_beq zero)
        · exact fun _ => wholeExponent_finite whole
    · next above =>
      apply raised_safe documented
      · intro zero negative
        exact guarded (by simp [isZero_of_beq zero, negative])
      · exact fun below => absurd below above

theorem scalarPower_running (base exponent : Float) :
    scalarPower .running base exponent = liftM (Value.scalarPower base exponent) := by
  unfold scalarPower Value.scalarPower
  rw [isZero_eq_ok, lift_ok, ok_bind, wholeExponent_eq]
  split
  · rfl
  · split
    · cases Scalar.nearest exponent with
      | none => rfl
      | some n => cases MatrixCalculator.isIntegral exponent <;> rfl
    · rfl

theorem real_safe (function : ScalarFunction) (v : Value Float) :
    FailsOnly UserFault (v.real function) := by
  cases v with
  | scalar x => exact failsOnly_ok x
  | matrix m => rfl

/-- A call of the library behind a guard that rules out what the library refuses. -/
theorem call_safe {result : Except MachineError Float} {refused : Prop}
    (documented : FailsOnly (fun _ => refused) result) (guarded : ¬refused) :
    FailsOnly IsUserError (do return Value.scalar (← result) : Except (Stop Fault) (Value Float)) := by
  obtain ⟨x, reached⟩ := documented.exists_ok fun _ => guarded
  rw [reached]
  exact failsOnly_ok _

theorem root_safe {library : Library} (documented : library.Documented) (v : Value Float) :
    FailsOnly IsUserError (root library v) := by
  refine (real_safe .root v).lift.bind fun x _ => ?_
  split
  · rfl
  · next guarded => exact call_safe (documented.root x) guarded

theorem logarithm_safe {library : Library} (documented : library.Documented) (v : Value Float) :
    FailsOnly IsUserError (logarithm library v) := by
  refine (real_safe .logarithm v).lift.bind fun x _ => ?_
  split
  · rfl
  · next guarded => exact call_safe (documented.logarithm x) guarded

theorem ofAngle_safe (function : ScalarFunction) {f : Float → Except MachineError Float}
    (documented : ∀ x, FailsOnly (fun _ => x.isInf = true) (f x)) (v : Value Float) :
    FailsOnly IsUserError (ofAngle function f v) := by
  refine (real_safe function v).lift.bind fun x _ => ?_
  split
  · rfl
  · next guarded => exact call_safe (documented x) guarded

theorem root_running (v : Value Float) : root .running v = liftM v.root := by
  cases v with
  | matrix m => rfl
  | scalar x =>
    show (if x < 0 then _ else _) = liftM (if x < 0 then _ else _)
    split <;> rfl

theorem logarithm_running (v : Value Float) : logarithm .running v = liftM v.logarithm := by
  cases v with
  | matrix m => rfl
  | scalar x =>
    show (if x ≤ 0 then _ else _) = liftM (if x ≤ 0 then _ else _)
    split <;> rfl

theorem ofAngle_running (function : ScalarFunction) (f : Float → Float) (v : Value Float) :
    ofAngle function (fun x => .ok (f x)) v = liftM (Value.ofAngle function f v) := by
  cases v with
  | matrix m => rfl
  | scalar x =>
    show (if x.isInf then _ else _) = liftM (if x.isInf then _ else _)
    split <;> rfl

theorem product_between (n : Nat) : Value.product n =
    (between 2 (n + 1)).foldl (fun total i => total * Float.ofNat i) 1 := by
  cases n with
  | zero =>
    have none : between 2 (0 + 1) = [] := rfl
    rw [none, Value.product, List.range_zero, List.foldl_nil, List.foldl_nil]
  | succ n =>
    have factors : between 2 (n + 2) = (List.range n).map (2 + ·) := List.range'_eq_map_range
    have unit : (1 : Float) * Float.ofNat (0 + 1) = 1 := by decide +kernel
    rw [factors, Value.product, List.range_succ_eq_map, List.foldl_cons, List.foldl_map,
      List.foldl_map, unit]
    simp only [Nat.add_comm 2, Nat.succ_eq_add_one, Nat.add_assoc, Nat.reduceAdd]

theorem product_eq_ok {x : Float} {value : ℚ} (known : Double.exact x = some value) :
    product (Rounding.truncated value).toNat =
      .ok (Value.product (Rounding.truncated value).toNat) := by
  rw [product_between]
  refine foldlM_eq_ok id _ (fun total i member => ?_) 1
  have bound := (mem_between.mp member).2
  have small : (i : Int).natAbs ≤ (Rounding.truncated value).natAbs := by omega
  rw [ofInt_of_le known small]
  rfl

theorem factorial_eq (v : Value Float) : factorial v = liftM v.factorial := by
  cases v with
  | matrix m => rfl
  | scalar x =>
    show (if x < 0 then _ else _) = liftM (if x < 0 then _ else _)
    split
    · rfl
    · next above =>
      show (if x.isNaN then _ else if x > Value.largestFactorial then _ else _) =
        liftM (if x > Value.largestFactorial then _ else _)
      cases number : x.isNaN with
      | true =>
        obtain ⟨below, known⟩ := Double.incomparable_of_isNaN Value.largestFactorial number
        have undefined : Scalar.exact x = none := known
        rw [if_pos rfl, if_neg below, undefined]
        rfl
      | false =>
        split
        · contradiction
        · split
          · rfl
          · next below =>
            obtain ⟨value, known⟩ := Double.exists_exact number (Double.isInf_of_between above below)
            have finite : Scalar.exact x = some value := known
            simp [truncated, exact, known, finite, product_eq_ok known]

theorem factorial_safe (v : Value Float) : FailsOnly IsUserError (factorial v) := by
  rw [factorial_eq]
  refine FailsOnly.lift ((real_safe .factorial v).bind fun x _ => ?_)
  split
  · rfl
  · split
    · exact failsOnly_ok _
    · cases Scalar.exact x <;> exact failsOnly_ok _

end MatrixCalculator.Checked
