/-! Calculations: a result or a fault, together with the notes that were made on the way. A
calculation that fails keeps the notes it made before. -/
namespace MatrixCalculator

inductive Note
  | noPivot (column : Nat)
  | invertible
  | contradiction (row : Nat) (constant : String)
  | uniqueSolution (rank : Nat)
  | manySolutions (rank unknowns : Nat)
  | assigned (name : String) (isMatrix : Bool)
deriving Repr, DecidableEq

structure Calculation (ε β : Type) where
  notes : List Note
  outcome : Except ε β

namespace Calculation

variable {ε ε' β γ : Type}

def bind (first : Calculation ε β) (next : β → Calculation ε γ) : Calculation ε γ :=
  match first.outcome with
  | .error e => ⟨first.notes, .error e⟩
  | .ok b => ⟨first.notes ++ (next b).notes, (next b).outcome⟩

instance : Monad (Calculation ε) where
  pure b := ⟨[], .ok b⟩
  bind := bind

def fail (e : ε) : Calculation ε β :=
  ⟨[], .error e⟩

def note (n : Note) : Calculation ε Unit :=
  ⟨[n], .ok ()⟩

def ofExcept (outcome : Except ε β) : Calculation ε β :=
  ⟨[], outcome⟩

def mapError (f : ε → ε') (calculation : Calculation ε β) : Calculation ε' β :=
  ⟨calculation.notes, calculation.outcome.mapError f⟩

@[simp] theorem outcome_pure (b : β) : (pure b : Calculation ε β).outcome = .ok b :=
  rfl

@[simp] theorem outcome_fail (e : ε) : (fail e : Calculation ε β).outcome = .error e :=
  rfl

@[simp] theorem outcome_note (n : Note) : (note n : Calculation ε Unit).outcome = .ok () :=
  rfl

@[simp] theorem outcome_ofExcept (outcome : Except ε β) :
    (ofExcept outcome).outcome = outcome :=
  rfl

@[simp] theorem outcome_bind (first : Calculation ε β) (next : β → Calculation ε γ) :
    (first >>= next).outcome = first.outcome >>= fun b => (next b).outcome := by
  show (bind first next).outcome = _
  unfold bind
  cases first.outcome <;> rfl

end Calculation

end MatrixCalculator
