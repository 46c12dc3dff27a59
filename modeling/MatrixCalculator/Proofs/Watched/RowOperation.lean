import MatrixCalculator.Proofs.Watched.Run

/-! Watched row operations. On the matrix of a grid all indices lie inside, and a loop over rows
that adds to each of them a multiple of one and the same row does it to the rows as they were. -/
namespace MatrixCalculator.Watched

open DenseMatrix (addRows)

variable {α : Type} {m n : Nat}

def exchange (m : DenseMatrix α) (i j : Nat) : Run α (DenseMatrix α) :=
  if i = j then return m else change (m.swapRows i j)

def exchanged (g : Grid α m n) (i j : Fin m) : List (Event α) :=
  if i = j then [] else [.working (DenseMatrix.ofGrid (g.swapRows i j))]

theorem mem_exchanged {g : Grid α m n} {i j : Fin m} {event : Event α}
    (member : event ∈ exchanged g i j) : ∃ next, event = .working next := by
  unfold exchanged at member
  split at member
  · contradiction
  · exact ⟨_, List.mem_singleton.mp member⟩

theorem exchange_ofGrid (g : Grid α m n) (wide : 0 < n) (i j : Fin m) :
    exchange (DenseMatrix.ofGrid g) i j =
      done (exchanged g i j) (DenseMatrix.ofGrid (g.swapRows i j)) := by
  unfold exchange exchanged
  by_cases same : i = j
  · rw [if_pos (congrArg Fin.val same), if_pos same, same, Grid.swapRows_self]
    rfl
  · rw [if_neg fun equal => same (Fin.ext equal), if_neg same]
    exact change_eq (DenseMatrix.swapRows_ofGrid g wide i j)

variable [Scalar α]

def clearRow (source col : Nat) (factor : α → Run α α) (m : DenseMatrix α) (i : Nat) :
    Run α (DenseMatrix α) := do
  let f ← factor (← m.get i col)
  change (m.addRow i source f)

def sweep (source : Fin m) (f : Fin m → α) (before : List (Event α)) :
    List (Fin m) → Grid α m n → List (Event α)
  | [], _ => []
  | i :: rest, g =>
    let next := g.addRow i source (f i)
    before ++ .working (DenseMatrix.ofGrid next) :: sweep source f before rest next

section Sweeps

variable {source : Fin m} {f : Fin m → α} {before : List (Event α)} {rows : List (Fin m)}

theorem mem_sweep {g : Grid α m n} {event : Event α}
    (member : event ∈ sweep source f before rows g) :
    event ∈ before ∨ ∃ next, event = .working next := by
  induction rows generalizing g with
  | nil => contradiction
  | cons i rest ih =>
    rcases List.mem_append.mp member with front | behind
    · exact .inl front
    · rcases List.mem_cons.mp behind with rfl | later
      · exact .inr ⟨_, rfl⟩
      · exact ih later

/-- A loop over rows, each of which is read just before a multiple is added to it. No row is
written before it is read, so the loop finds the column as it was. -/
theorem foldlM_sweep {σ τ : Type} (view : σ → τ) (work : σ → Grid α m n) {step : τ → Nat → Run α τ}
    (next : σ → Fin m → σ) (plain : α → α) (col : Fin n)
    (works : ∀ s i, work (next s i) = (work s).addRow i source (f i))
    (moves : ∀ s i, plain ((work s).get i col) = f i → step (view s) i =
      done (before ++ [.working (DenseMatrix.ofGrid (work (next s i)))]) (view (next s i)))
    (s : σ) (nodup : rows.Nodup) (reads : ∀ i ∈ rows, plain ((work s).get i col) = f i) :
    (rows.map Fin.val).foldlM step (view s) =
      done (sweep source f before rows (work s)) (view (rows.foldl next s)) := by
  induction rows generalizing s with
  | nil => rfl
  | cons i rest ih =>
    obtain ⟨fresh, nodup⟩ := List.nodup_cons.mp nodup
    obtain ⟨here, others⟩ := List.forall_mem_cons.mp reads
    rw [List.map_cons, List.foldlM_cons, moves s i here, done_bind, ih _ nodup, behind_done,
      List.append_assoc, works]
    · rfl
    · intro j member
      have apart : j ≠ i := fun same => fresh (same ▸ member)
      rw [works, Grid.get_addRow, if_neg apart]
      exact others j member

theorem clearRows_ofGrid {factor : α → Run α α} {plain : α → α}
    (computes : ∀ x, factor x = done before (plain x)) (col : Fin n) (g : Grid α m n)
    (nodup : rows.Nodup) (reads : ∀ i ∈ rows, plain (g.get i col) = f i) :
    (rows.map Fin.val).foldlM (clearRow source col factor) (DenseMatrix.ofGrid g) =
      done (sweep source f before rows g) (DenseMatrix.ofGrid (addRows source f rows g)) := by
  refine foldlM_sweep DenseMatrix.ofGrid id (fun g i => g.addRow i source (f i)) plain col
    (fun _ _ => rfl) (fun g i here => ?_) g nodup reads
  rw [clearRow, read_bind (DenseMatrix.get_ofGrid g i col), computes, done_bind,
    change_eq (DenseMatrix.addRow_ofGrid g (Fin.pos col) i source _), behind_done, ← here]
  rfl

end Sweeps

end MatrixCalculator.Watched
