import MatrixCalculator.Proofs.Flat.Making

/-! What the operations do to the plane of cells. Whatever operations came before, every storage
shows a matrix, a step that returns leaves the matrix that the textbook says, and a step that fails
leaves everything as it was. -/
namespace MatrixCalculator.Flat

open Workspace (Change Creation)

/-- What holds of a memory in which every operation acts on the plane of cells as in the
textbook. -/
structure Planar (memory : Memory Float) : Prop where
  shows : ∀ {name s}, memory name = some s →
    ∃ A : Matrix (Fin s.rows) (Fin s.cols) Float, s.Shows A
  full : ∀ {name s}, memory name = some s → s.data.length = s.rows * s.cols
  changed : ∀ {name s} {m n : Nat} {A : Matrix (Fin m) (Fin n) Float} (change : Change Float),
    memory name = some s → s.Shows A →
      (∃ B t, Changes A change B ∧ (∀ i j, ¬Touches change i.val j.val → B i j = A i j) ∧
        t.Shows B ∧ memory.perform (.change name change) = (.ok t, memory.put name t)) ∨
      ∃ place ∈ positions change, ¬Inside m n place ∧
        memory.perform (.change name change) =
          (.error (.ofFault (.indexOutOfRange place.1 place.2 m n)), memory)
  created : ∀ {name creation s}, (memory.perform (.create name creation)).1 = .ok s →
    (memory.perform (.create name creation)).2 = memory.put name s ∧
      ∃ (m n : Nat) (B : Matrix (Fin m) (Fin n) Float), s.Shows B ∧ Makes memory creation B
  creates : ∀ {name creation} {m n : Nat} {B : Matrix (Fin m) (Fin n) Float},
    Makes memory creation B → ∃ s, s.Shows B ∧
      memory.perform (.create name creation) = (.ok s, memory.put name s)
  refused : ∀ {step e}, (memory.perform step).1 = .error e → (memory.perform step).2 = memory

/-- What the products, powers and inverses are that the textbook account of a step names. -/
structure Arithmetical : Prop where
  powers : ∀ {n : Nat} (A : Matrix (Fin n) (Fin n) Float) (k : Nat), Powers A k (raised A k)
  product : ∀ {m n p : Nat} (A : Matrix (Fin m) (Fin n) ℚ) (B : Matrix (Fin n) (Fin p) ℚ),
    accumulated A B = A * B
  power : ∀ {n : Nat} (A : Matrix (Fin n) (Fin n) ℚ) (k : Nat), raised A k = A ^ k
  inverse : ∀ {n : Nat} {A B : Matrix (Fin n) (Fin n) ℚ}, Inverts A B → A * B = 1 ∧ B * A = 1

theorem Mirrors.known {memory : Memory Float} {w : Workspace Float} (same : Mirrors memory w)
    (name : String) (s : Storage Float) (found : memory name = some s) : ∃ m, s = .of m := by
  rw [same name] at found
  cases looked : w.matrices.lookup name with
  | none => simp [looked] at found
  | some entry =>
    rw [looked] at found
    exact ⟨entry.matrix, (Option.some.inj found).symm⟩

section Known

variable {memory : Memory Float} (known : ∀ name s, memory name = some s → ∃ m, s = .of m)

theorem perform_change_cases {name : String} {s : Storage Float} {m n : Nat}
    {A : Matrix (Fin m) (Fin n) Float} (change : Change Float) (found : memory name = some s)
    (shown : s.Shows A) :
    (∃ B t, Changes A change B ∧ (∀ i j, ¬Touches change i.val j.val → B i j = A i j) ∧
      t.Shows B ∧ memory.perform (.change name change) = (.ok t, memory.put name t)) ∨
    ∃ place ∈ positions change, ¬Inside m n place ∧
      memory.perform (.change name change) =
        (.error (.ofFault (.indexOutOfRange place.1 place.2 m n)), memory) := by
  have same := shown.eq_ofGrid
  subst same
  rw [perform_change found]
  rcases changed_cases (Grid.ofMatrix A) change with
    ⟨h, changes, returned⟩ | ⟨place, member, outside, refused⟩
  · rw [Grid.toMatrix_ofMatrix] at changes
    rw [returned]
    exact .inl ⟨_, _, changes, fun _ _ away => changes.untouched away, shows_ofGrid h, rfl⟩
  · rw [refused]
    exact .inr ⟨place, member, outside, rfl⟩

include known

theorem perform_create_ok {name : String} {creation : Creation Float} {s : Storage Float}
    (returned : (memory.perform (.create name creation)).1 = .ok s) :
    (memory.perform (.create name creation)).2 = memory.put name s ∧
      Textbook memory creation s := by
  simp only [Memory.perform] at returned ⊢
  cases made : memory.create creation with
  | error e =>
    rw [made] at returned
    cases returned
  | ok t =>
    rw [made] at returned
    cases returned
    exact ⟨rfl, makes_of_create known made⟩

theorem perform_error {step : Step} {e : Failure} (failed : (memory.perform step).1 = .error e) :
    (memory.perform step).2 = memory := by
  cases step with
  | create name creation =>
    simp only [Memory.perform] at failed ⊢
    cases made : memory.create creation with
    | error _ => rfl
    | ok s =>
      rw [made] at failed
      cases failed
  | change name change =>
    cases found : memory name with
    | none => simp only [Memory.perform, found]
    | some s =>
      obtain ⟨m, rfl⟩ := known name s found
      rw [perform_change found] at failed ⊢
      cases returned : Workspace.changed m change with
      | error _ => rfl
      | ok next =>
        rw [returned] at failed
        cases failed

theorem planar_of_known : Planar memory where
  shows found := by
    obtain ⟨m, rfl⟩ := known _ _ found
    exact ⟨m.grid.toMatrix, shows_ofGrid m.grid⟩
  full found := by
    obtain ⟨m, rfl⟩ := known _ _ found
    exact m.grid.length_toList
  changed change found shown := perform_change_cases change found shown
  created returned := perform_create_ok known returned
  creates makes := by
    obtain ⟨s, shown, made⟩ := create_of_makes makes
    refine ⟨s, shown, ?_⟩
    rw [Memory.perform, made]
  refused failed := perform_error known failed

end Known

/-- Whatever operations came before, a memory holds the storages of the matrices of the workspace,
every further step replies alike, and all steps act on the plane of cells as in the textbook. -/
theorem run_planar (steps : List Step) :
    Mirrors (.after steps) (workspaceAfter steps) ∧
      (∀ step, Agrees ((Memory.after steps).perform step).1
        ((workspaceAfter steps).perform step.instruction).2) ∧
      Planar (.after steps) ∧ Arithmetical := by
  have same := mirrors_after steps
  exact ⟨same, fun step => (same.step step).2, planar_of_known same.known,
    ⟨powers_raised, accumulated_eq_mul, fun A k => (powers_raised A k).eq_pow,
      Inverts.mul_eq_one⟩⟩

/-- A row is added to itself, rows are exchanged, and a row that is not there is refused. -/
example : ((Memory.after [.create "m" (.rows [[1, 2, 3], [4, 5, 6]]),
    .change "m" (.addRow 1 1 1), .change "m" (.swapRows 0 1),
    .change "m" (.scaleRow 2 5)]) "m").map (·.data) = some [8, 10, 12, 1, 2, 3] := by
  decide +kernel

end MatrixCalculator.Flat
