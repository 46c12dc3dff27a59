import MatrixCalculator.Fault

/-! Outcomes of checked calculations. A calculation whose every operation is checked stops at a
fault that it finds itself, or at an operation that is refused by the machine below it. -/
namespace MatrixCalculator.Checked

/-- Why the machine refuses an operation: its result is too large, it has none, or it is given
another number of arguments than it takes. -/
inductive MachineError
  | overflow | domain | arity
deriving Repr, DecidableEq

inductive Stop (ε : Type)
  | fault (e : ε)
  | machine (e : MachineError)
deriving Repr, DecidableEq

variable {ε ε' β γ : Type}

namespace Stop

def map (f : ε → ε') : Stop ε → Stop ε'
  | fault e => fault (f e)
  | machine e => machine e

def IsFault (allowed : ε → Prop) : Stop ε → Prop
  | fault e => allowed e
  | machine _ => False

end Stop

instance : MonadLift (Except ε) (Except (Stop ε)) where
  monadLift := Except.mapError .fault

instance : MonadLift (Except MachineError) (Except (Stop ε)) where
  monadLift := Except.mapError .machine

def UserFault (fault : Fault) : Prop :=
  fault.isUserError = true

def IsUserError : Stop Fault → Prop :=
  Stop.IsFault UserFault

/-- Whether an outcome is a result, or an error of an allowed kind. -/
def FailsOnly (allowed : ε → Prop) : Except ε β → Prop
  | .ok _ => True
  | .error e => allowed e

variable {allowed : ε → Prop}

@[simp] theorem failsOnly_ok (b : β) : FailsOnly allowed (.ok b : Except ε β) :=
  trivial

@[simp] theorem failsOnly_error {e : ε} :
    FailsOnly allowed (.error e : Except ε β) ↔ allowed e :=
  Iff.rfl

theorem FailsOnly.bind {first : Except ε β} {next : β → Except ε γ}
    (start : FailsOnly allowed first) (later : ∀ b, first = .ok b → FailsOnly allowed (next b)) :
    FailsOnly allowed (first >>= next) := by
  cases first with
  | error e => exact start
  | ok b => exact later b rfl

theorem FailsOnly.exists_ok {outcome : Except ε β} (only : FailsOnly allowed outcome)
    (never : ∀ e, ¬allowed e) : ∃ b, outcome = .ok b := by
  cases outcome with
  | error e => exact absurd only (never e)
  | ok b => exact ⟨b, rfl⟩

theorem FailsOnly.mapError {outcome : Except ε β} {accepted : ε' → Prop} {f : ε → ε'}
    (only : FailsOnly allowed outcome) (translated : ∀ e, allowed e → accepted (f e)) :
    FailsOnly accepted (outcome.mapError f) := by
  cases outcome with
  | error e => exact translated e only
  | ok b => trivial

theorem FailsOnly.lift {outcome : Except ε β} (only : FailsOnly allowed outcome) :
    FailsOnly (Stop.IsFault allowed) (liftM outcome : Except (Stop ε) β) :=
  only.mapError fun _ accepted => accepted

theorem FailsOnly.map {outcome : Except ε β} {f : β → γ} (only : FailsOnly allowed outcome) :
    FailsOnly allowed (outcome.map f) := by
  cases outcome with
  | error e => exact only
  | ok b => trivial

@[simp] theorem ok_bind (b : β) (next : β → Except ε γ) : (.ok b >>= next) = next b :=
  rfl

theorem bind_eq_ok {first : Except ε β} {next : β → Except ε γ} {c : γ}
    (reached : (first >>= next) = .ok c) : ∃ b, first = .ok b ∧ next b = .ok c := by
  cases first with
  | error e => cases reached
  | ok b => exact ⟨b, rfl, reached⟩

@[simp] theorem lift_ok (b : β) : (liftM (.ok b : Except ε β) : Except (Stop ε) β) = .ok b :=
  rfl

@[simp] theorem lift_pure (b : β) : (liftM (pure b : Except ε β) : Except (Stop ε) β) = .ok b :=
  rfl

@[simp] theorem lift_machine_ok (b : β) :
    (liftM (.ok b : Except MachineError β) : Except (Stop ε) β) = .ok b :=
  rfl

theorem lift_bind (first : Except ε β) (next : β → Except ε γ) :
    (liftM (first >>= next) : Except (Stop ε) γ) =
      (liftM first : Except (Stop ε) β) >>= fun b => liftM (next b) := by
  cases first <;> rfl

end MatrixCalculator.Checked
