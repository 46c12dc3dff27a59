import MatrixCalculator.Proofs.DenseMatrix.RowOperation

/-! Watched runs. A run reads and writes matrices through checked indices and stops at a division
by an exact zero. It leaves a record of what it tests for zero, of its pivots, of its divisors
and of every state of its working matrix. -/
namespace MatrixCalculator.Watched

inductive Event (α : Type)
  /-- A number tested for zero, and the answer. -/
  | tested (x : α) (zero : Bool)
  | pivot (x : α)
  | divided (divisor : α)
  | working (m : DenseMatrix α)

def Event.isTest {α : Type} : Event α → Bool
  | .tested _ _ => true
  | _ => false

structure Run (α β : Type) where
  events : List (Event α)
  outcome : Except Fault β

variable {α β γ : Type}

instance : Monad (Run α) where
  pure b := ⟨[], .ok b⟩
  bind first next := match first.outcome with
    | .error fault => ⟨first.events, .error fault⟩
    | .ok b => ⟨first.events ++ (next b).events, (next b).outcome⟩

instance : MonadLift (Except Fault) (Run α) where
  monadLift outcome := ⟨[], outcome⟩

def mark (event : Event α) : Run α Unit :=
  ⟨[event], .ok ()⟩

def fail (fault : Fault) : Run α β :=
  ⟨[], .error fault⟩

def done (events : List (Event α)) (b : β) : Run α β :=
  ⟨events, .ok b⟩

def Run.behind (events : List (Event α)) (run : Run α β) : Run α β :=
  ⟨events ++ run.events, run.outcome⟩

section Binds

variable {events later : List (Event α)} {b : β} {next : β → Run α γ}

theorem Run.eq_done {run : Run α β} (reached : run.outcome = .ok b) :
    run = done run.events b := by
  rw [done, ← reached]

theorem pure_eq (b : β) : (pure b : Run α β) = done [] b :=
  rfl

@[simp] theorem done_bind : done events b >>= next = (next b).behind events :=
  rfl

@[simp] theorem behind_nil (run : Run α β) : run.behind [] = run :=
  rfl

@[simp] theorem behind_done : (done later b).behind events = done (events ++ later) b :=
  rfl

@[simp] theorem mark_bind {event : Event α} {next : Unit → Run α γ} :
    mark event >>= next = (next ()).behind [event] :=
  rfl

@[simp] theorem behind_behind (run : Run α β) :
    (run.behind later).behind events = run.behind (events ++ later) := by
  rw [Run.behind, Run.behind, Run.behind, List.append_assoc]

/-- What is known of an outcome is known of its reading. -/
theorem read {outcome : Except Fault β} (known : outcome = .ok b) :
    (liftM outcome : Run α β) = done [] b :=
  known ▸ rfl

theorem read_bind {outcome : Except Fault β} (known : outcome = .ok b) :
    (liftM outcome : Run α β) >>= next = next b := by
  rw [read known, done_bind, behind_nil]

theorem events_subset_bind {first : Run α β} {next : β → Run α γ} :
    first.events ⊆ (first >>= next).events := by
  obtain ⟨events, fault | b⟩ := first
  · exact List.Subset.refl _
  · exact List.subset_append_left _ _

end Binds

def change (changed : Except Fault (DenseMatrix α)) : Run α (DenseMatrix α) := do
  let m ← changed
  mark (.working m)
  return m

theorem change_eq {changed : Except Fault (DenseMatrix α)} {m : DenseMatrix α}
    (known : changed = .ok m) : change changed = done [.working m] m := by
  rw [change, read_bind known]
  rfl

variable [Scalar α]

def test (x : α) : Run α Bool :=
  done [.tested x (isZero x)] (isZero x)

def quotient (x y : α) : Run α α := do
  mark (.divided y)
  let d ← Grid.divisor y
  return x / d

theorem quotient_eq (x : α) {y : α} (nonzero : (y == 0) = false) :
    quotient x y = done [.divided y] (x / y) := by
  have divides : Grid.divisor y = .ok y := by simp [Grid.divisor, nonzero]
  rw [quotient, divides]
  rfl

/-- A number that was tested for zero, and was not. -/
def Vouched (events : List (Event α)) (x : α) : Prop :=
  isZero x = false ∧ .tested x false ∈ events

def Vouches (events : List (Event α)) : Prop :=
  ∀ d, .divided d ∈ events → Vouched events d

section Vouching

variable {events later : List (Event α)}

theorem Vouched.mono {x : α} (vouched : Vouched events x) (more : events ⊆ later) :
    Vouched later x :=
  ⟨vouched.1, more vouched.2⟩

theorem Vouches.nil : Vouches ([] : List (Event α)) :=
  fun _ member => absurd member List.not_mem_nil

theorem Vouches.append (front : Vouches events) (back : Vouches later) :
    Vouches (events ++ later) := by
  intro d member
  rcases List.mem_append.mp member with first | second
  · exact (front d first).mono (List.subset_append_left _ _)
  · exact (back d second).mono (List.subset_append_right _ _)

/-- Events behind the test of a number divide by nothing but that number. -/
theorem Vouches.tested {x : α} (nonzero : isZero x = false)
    (only : ∀ d, .divided d ∈ events → d = x) : Vouches (.tested x false :: events) := by
  intro d member
  rcases List.mem_cons.mp member with same | later
  · cases same
  · rw [only d later]
    exact ⟨nonzero, List.mem_cons_self⟩

theorem Vouches.test (x : α) (zero : Bool) : Vouches [.tested x zero] := by
  intro d member
  cases List.mem_singleton.mp member

end Vouching

end MatrixCalculator.Watched
