import MatrixCalculator.Proofs.Checked.Outcome
import MatrixCalculator.Proofs.Grid.Pivot
import Mathlib.Data.List.FinRange

/-! Loops over ranges of whole numbers, as a checked calculation runs them. -/
namespace MatrixCalculator.Checked

def between (start stop : Nat) : List Nat :=
  List.range' start (stop - start)

theorem mem_between {start stop i : Nat} : i ∈ between start stop ↔ start ≤ i ∧ i < stop := by
  rw [between, List.mem_range'_1]
  omega

theorem nodup_between (start stop : Nat) : (between start stop).Nodup :=
  List.nodup_range'

theorem range_append_between {start stop : Nat} (inside : start ≤ stop) :
    List.range start ++ between start stop = List.range stop := by
  have joined : List.range' 0 start ++ List.range' (0 + start) (stop - start) = _ :=
    List.range'_append_1
  rw [Nat.zero_add, Nat.add_sub_cancel' inside] at joined
  rw [List.range_eq_range', List.range_eq_range', between, joined]

theorem filter_range (start stop : Nat) :
    (List.range stop).filter (start ≤ ·) = between start stop := by
  rcases Nat.le_total start stop with inside | outside
  · have before : (List.range start).filter (start ≤ ·) = [] := by
      rw [List.filter_eq_nil_iff]
      intro i member
      simpa using List.mem_range.mp member
    have after : (between start stop).filter (start ≤ ·) = between start stop := by
      rw [List.filter_eq_self]
      intro i member
      simpa using (mem_between.mp member).1
    rw [← range_append_between inside, List.filter_append, before, after, List.nil_append]
  · have none : between start stop = [] := by
      rw [between, Nat.sub_eq_zero_of_le outside, List.range'_zero]
    rw [none, List.filter_eq_nil_iff]
    intro i member
    simpa using (List.mem_range.mp member).trans_le outside

theorem between_eq_map {n : Nat} (start : Nat) : between start n =
    ((List.finRange n).filter fun i => decide (start ≤ i.val)).map Fin.val := by
  rw [← filter_range, ← List.map_coe_finRange_eq_range, List.filter_map]
  rfl

theorem map_val_rowsBelow {m : Nat} (start : Fin m) :
    (Grid.rowsBelow start).map Fin.val = between (start + 1) m :=
  (between_eq_map (start.val + 1)).symm

variable {σ τ ι ε : Type}

/-- A loop whose steps never fail, over what `view` shows of the state. -/
theorem foldlM_eq_ok (view : σ → τ) {step : τ → ι → Except ε τ} {plain : σ → ι → σ}
    (items : List ι) (agree : ∀ s, ∀ i ∈ items, step (view s) i = .ok (view (plain s i)))
    (start : σ) : items.foldlM step (view start) = .ok (view (items.foldl plain start)) := by
  induction items generalizing start with
  | nil => rfl
  | cons i rest ih =>
    rw [List.foldlM_cons, agree start i List.mem_cons_self, ok_bind, List.foldl_cons]
    exact ih (fun s j member => agree s j (List.mem_cons_of_mem _ member)) _

theorem foldlM_range {n : Nat} (step : σ → Nat → Except ε σ) (start : σ) :
    (List.range n).foldlM step start =
      (List.finRange n).foldlM (fun s (k : Fin n) => step s k) start := by
  rw [← List.map_coe_finRange_eq_range, List.foldlM_map]

theorem allM_eq_ok {κ : Type} {p : ι → Except ε Bool} {q : κ → Bool} {f : κ → ι}
    (agree : ∀ k, p (f k) = .ok (q k)) (items : List κ) :
    (items.map f).allM p = .ok (items.all q) := by
  induction items with
  | nil => rfl
  | cons k rest ih =>
    rw [List.map_cons, List.allM, agree, ok_bind, List.all_cons]
    cases q k with
    | true => exact ih
    | false => rfl

theorem findM?_eq_ok {κ : Type} {p : ι → Except ε Bool} {q : κ → Bool} {f : κ → ι}
    (agree : ∀ k, p (f k) = .ok (q k)) (items : List κ) :
    (items.map f).findM? p = .ok ((items.find? q).map f) := by
  induction items with
  | nil => rfl
  | cons k rest ih =>
    rw [List.map_cons, List.findM?, agree, ok_bind, List.find?_cons]
    cases q k with
    | true => rfl
    | false => exact ih

theorem mapM_eq_ok {κ β : Type} {p : ι → Except ε β} {q : κ → β} {f : κ → ι}
    (agree : ∀ k, p (f k) = .ok (q k)) (items : List κ) :
    (items.map f).mapM p = .ok (items.map q) := by
  induction items with
  | nil => rfl
  | cons k rest ih =>
    rw [List.map_cons, List.mapM_cons, agree, ok_bind, ih]
    rfl

theorem findIdx_finRange {n : Nat} (q : Fin n → Bool) :
    (List.finRange n).findIdx q = (((List.finRange n).find? q).map Fin.val).getD n := by
  have position : (List.finRange n).find? q = (List.finRange n)[(List.finRange n).findIdx q]? :=
    List.find?_eq_getElem?_findIdx
  have bound : (List.finRange n).findIdx q ≤ (List.finRange n).length := List.findIdx_le_length
  rw [List.length_finRange] at bound
  cases found : (List.finRange n).find? q with
  | none =>
    rw [found, eq_comm, List.getElem?_eq_none_iff, List.length_finRange] at position
    exact Nat.le_antisymm bound position
  | some j =>
    rw [found, eq_comm, List.getElem?_eq_some_iff] at position
    obtain ⟨inside, same⟩ := position
    rw [List.getElem_finRange] at same
    exact congrArg Fin.val same

end MatrixCalculator.Checked
