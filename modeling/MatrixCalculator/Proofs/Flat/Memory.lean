import MatrixCalculator.Proofs.Flat.Elimination
import MatrixCalculator.Workspace

/-! Memories: flat storages under names. Every operation makes a storage or changes one in its
place, and a change that stops leaves its storage as it stands by then. A memory and a workspace
that go through the same operations hold the same matrices and fail alike. -/
namespace MatrixCalculator.Flat

open Workspace (Creation Change Instruction Mishap Reply)

inductive Step
  | create (name : String) (creation : Creation Float)
  | change (name : String) (change : Change Float)

def Step.instruction : Step → Instruction Float
  | create name creation => .create name creation
  | change name act => .change name act

abbrev Memory (α : Type) := String → Option (Storage α)

def Failure.ofMishap : Mishap → Failure
  | .unknownName name => .unknownName name
  | .matrix fault => .ofFault fault

def changing : Change Float → InPlace Float Unit
  | .set i j x => .setCell i j x
  | .swapRows i j => .swapRows i j
  | .scaleRow i factor => .scaleRow i factor
  | .addRow target source factor => .addRow target source factor

namespace Memory

def empty : Memory Float :=
  fun _ => none

def find (memory : Memory Float) (name : String) : Except Failure (Storage Float) :=
  match memory name with
  | some s => .ok s
  | none => .error (.unknownName name)

def put (memory : Memory Float) (name : String) (s : Storage Float) : Memory Float :=
  Function.update memory name (some s)

def create (memory : Memory Float) : Creation Float → Except Failure (Storage Float)
  | .shaped rows cols data => construct rows cols data
  | .identity n => identity n
  | .scalar x => single x
  | .rows rows => fromRows rows
  | .copy source => do copy (← memory.find source)
  | .transpose source => do transposed (← memory.find source)
  | .inverse source => do inverse (← memory.find source)
  | .sum left right => do sum (← memory.find left) (← memory.find right)
  | .product left right => do product (← memory.find left) (← memory.find right)
  | .scaled source factor => do scaled (← memory.find source) factor
  | .power source exponent => do power (← memory.find source) exponent

def perform (memory : Memory Float) : Step → Except Failure (Storage Float) × Memory Float
  | .create name creation =>
    match memory.create creation with
    | .ok s => (.ok s, memory.put name s)
    | .error e => (.error e, memory)
  | .change name change =>
    match memory name with
    | none => (.error (.unknownName name), memory)
    | some s =>
      match (changing change).run s with
      | .ok _ next => (.ok next, memory.put name next)
      | .error e next => (.error e, memory.put name next)

def after (steps : List Step) : Memory Float :=
  steps.foldl (fun memory step => (memory.perform step).2) empty

end Memory

def workspaceAfter (steps : List Step) : Workspace Float :=
  steps.foldl (fun w step => (w.perform step.instruction).1) .empty

def Mirrors (memory : Memory Float) (w : Workspace Float) : Prop :=
  ∀ name, memory name = (w.matrices.lookup name).map fun entry => .of entry.matrix

/-- Whether a step returned the storage of the matrix that an instruction replied with, or
failed as it did. -/
def Agrees : Except Failure (Storage Float) → Except Mishap (Reply Float) → Prop
  | .ok s, .ok (.matrix m) => s = .of m
  | .error e, .error mishap => e = .ofMishap mishap
  | _, _ => False

variable {memory : Memory Float} {w : Workspace Float}

theorem changing_of (m : DenseMatrix Float) (change : Change Float) :
    (changing change).run (.of m) = responded m (Workspace.changed m change) := by
  cases change with
  | set i j x => exact setCell_of m i j x
  | swapRows i j => exact swapRows_of m i j
  | scaleRow i factor => exact scaleRow_of m i factor
  | addRow target source factor => exact addRow_of m target source factor

def held (outcome : Except Mishap (DenseMatrix Float)) : Except Failure (Storage Float) :=
  (outcome.map .of).mapError .ofMishap

theorem Mirrors.find (same : Mirrors memory w) (name : String) :
    memory.find name = held (w.matrix name) := by
  rw [Memory.find, same name, Workspace.matrix, Workspace.find]
  cases w.matrices.lookup name <;> rfl

theorem held_bind {β : Type} {start : Except Failure (Storage Float)}
    {outcome : Except Mishap (DenseMatrix Float)} (first : start = held outcome)
    {later : Storage Float → Except Failure (Storage Float)}
    {next : DenseMatrix Float → Except Mishap β} {matrix : β → DenseMatrix Float}
    (agree : ∀ m, later (.of m) = held ((next m).map matrix)) :
    (start >>= later) = held ((outcome >>= next).map matrix) := by
  subst first
  cases outcome with
  | error mishap => rfl
  | ok m => exact agree m

/-- Marking the cells of a new matrix does not change the matrix. -/
theorem held_computed {start : Except Failure (Storage Float)}
    {outcome : Except Fault (DenseMatrix Float)} (made : start = stored outcome) :
    start = held ((Workspace.checked outcome >>= fun m => .ok (w.computed m)).map (·.matrix)) := by
  subst made
  cases outcome <;> rfl

theorem create_mirrors (same : Mirrors memory w) (creation : Creation Float) :
    memory.create creation = held ((w.create creation).map (·.matrix)) := by
  cases creation with
  | shaped rows cols data => exact held_computed (construct_eq rows cols data)
  | identity n => exact held_computed (identity_eq n)
  | scalar x => exact single_eq x
  | rows rows => exact held_computed (fromRows_eq rows)
  | copy source =>
    rw [Memory.create, same.find, Workspace.create, Workspace.matrix]
    cases w.find source with
    | error mishap => rfl
    | ok found => exact copy_of found.matrix
  | transpose source =>
    rw [Memory.create, same.find, Workspace.create, Workspace.matrix]
    cases w.find source with
    | error mishap => rfl
    | ok found => exact transposed_of found.matrix
  | inverse source =>
    exact held_bind (same.find source) fun m => held_computed (inverse_of m)
  | sum left right =>
    refine held_bind (same.find left) fun a => ?_
    exact held_bind (same.find right) fun b => held_computed (sum_of a b)
  | product left right =>
    refine held_bind (same.find left) fun a => ?_
    exact held_bind (same.find right) fun b => held_computed (product_of a b)
  | scaled source factor =>
    exact held_bind (same.find source) fun m => scaled_of m factor
  | power source exponent =>
    exact held_bind (same.find source) fun m => held_computed (power_of m exponent)

theorem lookup_filter_ne {β : Type} {name other : String} (apart : other ≠ name)
    (entries : List (String × β)) :
    (entries.filter (·.1 != name)).lookup other = entries.lookup other := by
  induction entries with
  | nil => rfl
  | cons entry rest ih =>
    obtain ⟨key, value⟩ := entry
    by_cases same : key = name
    · subst same
      have different : (other == key) = false := beq_false_of_ne apart
      simp [List.lookup_cons, different, ih]
    · simp [List.lookup_cons, same, ih]

theorem Mirrors.put (same : Mirrors memory w) (name : String) (entry : Workspace.Marked Float) :
    Mirrors (memory.put name (.of entry.matrix)) (w.store name entry) := by
  intro other
  rw [Memory.put, Workspace.store, Function.update_apply, List.lookup_cons]
  by_cases here : other = name
  · subst here
    simp
  · rw [if_neg here, same other, beq_false_of_ne here, lookup_filter_ne here]

theorem perform_change {name : String} {m : DenseMatrix Float} (found : memory name = some (.of m))
    (act : Change Float) : memory.perform (.change name act) =
      match Workspace.changed m act with
      | .ok next => (.ok (.of next), memory.put name (.of next))
      | .error fault => (.error (.ofFault fault), memory) := by
  simp only [Memory.perform, found, changing_of]
  cases Workspace.changed m act with
  | error fault =>
    have kept : memory.put name (.of m) = memory := by
      rw [Memory.put, ← found, Function.update_eq_self]
    exact congrArg (Prod.mk _) kept
  | ok next => rfl

theorem workspace_change {name : String} {entry : Workspace.Marked Float}
    (found : w.matrices.lookup name = some entry) (act : Change Float) :
    w.perform (.change name act) =
      match Workspace.changed entry.matrix act with
      | .ok next => (w.store name ⟨next, w.marksAfter entry act⟩, .ok (.matrix next))
      | .error fault => (w, .error (.matrix fault)) := by
  simp only [Workspace.perform, Workspace.attempt, Workspace.find, found, Checked.ok_bind]
  cases Workspace.changed entry.matrix act <;> rfl

/-- One step keeps a memory in step with a workspace. -/
theorem Mirrors.step (same : Mirrors memory w) (step : Step) :
    Mirrors (memory.perform step).2 (w.perform step.instruction).1 ∧
      Agrees (memory.perform step).1 (w.perform step.instruction).2 := by
  cases step with
  | create name creation =>
    have made := create_mirrors same creation
    simp only [Memory.perform, Step.instruction, Workspace.perform, Workspace.attempt, made]
    cases w.create creation with
    | error mishap => exact ⟨same, rfl⟩
    | ok entry => exact ⟨same.put name entry, rfl⟩
  | change name act =>
    have found := same name
    cases looked : w.matrices.lookup name with
    | none =>
      rw [looked] at found
      have absent : memory name = none := found
      simp only [Memory.perform, absent, Step.instruction, Workspace.perform, Workspace.attempt,
        Workspace.find, looked]
      exact ⟨same, rfl⟩
    | some entry =>
      rw [looked] at found
      rw [perform_change found, Step.instruction, workspace_change looked]
      cases Workspace.changed entry.matrix act with
      | error fault => exact ⟨same, rfl⟩
      | ok next => exact ⟨same.put name ⟨next, w.marksAfter entry act⟩, rfl⟩

theorem mirrors_empty : Mirrors .empty .empty :=
  fun _ => rfl

theorem Mirrors.run (same : Mirrors memory w) (steps : List Step) :
    Mirrors (steps.foldl (fun memory step => (memory.perform step).2) memory)
      (steps.foldl (fun w step => (w.perform step.instruction).1) w) := by
  induction steps generalizing memory w with
  | nil => exact same
  | cons step rest ih => exact ih (same.step step).1

theorem mirrors_after (steps : List Step) : Mirrors (.after steps) (workspaceAfter steps) :=
  mirrors_empty.run steps

end MatrixCalculator.Flat
