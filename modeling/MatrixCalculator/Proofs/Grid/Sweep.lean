import Mathlib.Data.List.FinRange

/-! Sweeps over all columns of a grid. What every step preserves on its way from one column to
the next holds of the state that a sweep ends in. -/
namespace MatrixCalculator.Grid

variable {σ ε : Type} {n : Nat}

theorem take_finRange_succ (k : Fin n) :
    (List.finRange n).take (k + 1) = (List.finRange n).take k ++ [k] := by
  rw [List.take_add_one]
  simp

theorem mem_take_finRange {k : Fin n} {count : Nat} :
    k ∈ (List.finRange n).take count ↔ k.val < count := by
  simp [List.mem_take_iff_getElem, Fin.ext_iff]

/-- A sweep from the first column to the last one whose steps may fail: if a step at column `k`
succeeds under the invariant of `k` and establishes that of `k + 1`, the sweep succeeds. -/
theorem foldlM_finRange (step : σ → Fin n → Except ε σ) (Invariant : Nat → σ → Prop)
    (preserved : ∀ (k : Fin n) (s : σ), Invariant k s →
      ∃ next, step s k = .ok next ∧ Invariant (k + 1) next)
    {start : σ} (initial : Invariant 0 start) :
    ∃ final, (List.finRange n).foldlM step start = .ok final ∧ Invariant n final := by
  have prefixes (k : Nat) (bound : k ≤ n) :
      ∃ s, ((List.finRange n).take k).foldlM step start = .ok s ∧ Invariant k s := by
    induction k with
    | zero => exact ⟨start, rfl, initial⟩
    | succ k ih =>
      obtain ⟨s, reached, kept⟩ := ih (Nat.le_of_succ_le bound)
      obtain ⟨next, moved, later⟩ := preserved ⟨k, bound⟩ s kept
      refine ⟨next, ?_, later⟩
      rw [take_finRange_succ ⟨k, bound⟩, List.foldlM_append, reached]
      show (List.foldlM step s [⟨k, bound⟩]) = .ok next
      rw [List.foldlM_cons, moved]
      rfl
  obtain ⟨final, reached, kept⟩ := prefixes n (Nat.le_refl n)
  rw [List.take_of_length_le (by simp)] at reached
  exact ⟨final, reached, kept⟩

/-- A sweep in step with one over what `view` shows of the state. -/
theorem foldlM_finRange_view {τ : Type} (view : σ → τ) (step : σ → Fin n → Except ε σ)
    (shown : τ → Fin n → Except ε τ) (Invariant : Nat → σ → Prop)
    (preserved : ∀ (k : Fin n) (s : σ), Invariant k s →
      ∃ next, step s k = .ok next ∧ shown (view s) k = .ok (view next) ∧ Invariant (k + 1) next)
    {start : σ} (initial : Invariant 0 start) :
    ∃ final, (List.finRange n).foldlM step start = .ok final ∧
      (List.finRange n).foldlM shown (view start) = .ok (view final) ∧ Invariant n final := by
  obtain ⟨final, reached, image, kept⟩ := foldlM_finRange step
    (fun k s => ((List.finRange n).take k).foldlM shown (view start) = .ok (view s) ∧ Invariant k s)
    (fun k s inv => by
      obtain ⟨next, moved, image, later⟩ := preserved k s inv.2
      refine ⟨next, moved, ?_, later⟩
      rw [take_finRange_succ, List.foldlM_append, inv.1]
      show List.foldlM shown (view s) [k] = .ok (view next)
      rw [List.foldlM_cons, image]
      rfl)
    ⟨rfl, initial⟩
  rw [List.take_of_length_le (by simp)] at image
  exact ⟨final, reached, image, kept⟩

/-- A sweep from the last column back to the first one. -/
theorem foldl_reverse_finRange (step : σ → Fin n → σ) (Invariant : Nat → σ → Prop)
    (preserved : ∀ (k : Fin n) (s : σ), Invariant (k + 1) s → Invariant k (step s k))
    {start : σ} (initial : Invariant n start) :
    Invariant 0 ((List.finRange n).reverse.foldl step start) := by
  rw [List.foldl_reverse]
  have suffixes (k : Nat) (bound : k ≤ n) :
      Invariant k (((List.finRange n).drop k).foldr (fun c s => step s c) start) := by
    induction bound using Nat.decreasingInduction with
    | self =>
      rw [List.drop_of_length_le (by simp)]
      exact initial
    | of_succ k bound ih =>
      rw [List.drop_eq_getElem_cons (by simpa using bound), List.foldr_cons]
      rw [List.getElem_finRange]
      exact preserved ⟨k, bound⟩ _ ih
  exact suffixes 0 (Nat.zero_le n)

end MatrixCalculator.Grid
