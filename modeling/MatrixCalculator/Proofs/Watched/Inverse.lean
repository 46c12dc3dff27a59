import MatrixCalculator.Proofs.Watched.Elimination

/-! The watched inverse. It divides by pivots and by the diagonal that they leave, all of which
the determinant has tested before on a matrix of its own. -/
namespace MatrixCalculator.Watched

open Checked (between map_val_rowsBelow)
open DenseMatrix (addRows addRows_eq searchPivot searchPivot_ofGrid)

namespace Pair

section Exchanges

variable {α : Type} {n : Nat}

def ofTandem (t : Grid.Tandem α n) : Pair α :=
  ⟨DenseMatrix.ofGrid t.work, DenseMatrix.ofGrid t.record⟩

theorem exchange_ofTandem (t : Grid.Tandem α n) (i j : Fin n) :
    exchange (.ofTandem t) i j = done (exchanged t.work i j) (.ofTandem (t.swapRows i j)) := by
  have wide := Fin.pos i
  unfold exchange exchanged
  by_cases same : i = j
  · rw [if_pos (congrArg Fin.val same), if_pos same, Grid.Tandem.swapRows, same,
      Grid.swapRows_self, Grid.swapRows_self]
    rfl
  · rw [if_neg fun equal => same (Fin.ext equal), if_neg same]
    simp only [ofTandem, change_eq (DenseMatrix.swapRows_ofGrid t.work wide i j), done_bind,
      read_bind (DenseMatrix.swapRows_ofGrid t.record wide i j)]
    rfl

end Exchanges

variable {α : Type} [Scalar α] {n : Nat}

theorem foldl_addRow (source : Fin n) (f : Fin n → α) (rows : List (Fin n))
    (t : Grid.Tandem α n) :
    rows.foldl (fun t i => ⟨t.work.addRow i source (f i), t.record.addRow i source (f i)⟩) t =
      ⟨addRows source f rows t.work, addRows source f rows t.record⟩ := by
  induction rows generalizing t with
  | nil => rfl
  | cons i rest ih => exact ih _

theorem clearRows_ofTandem {source col : Fin n} {f : Fin n → α} {before : List (Event α)}
    {rows : List (Fin n)} {factor : α → Run α α} {plain : α → α}
    (computes : ∀ x, factor x = done before (plain x)) (t : Grid.Tandem α n)
    (nodup : rows.Nodup) (reads : ∀ i ∈ rows, plain (t.work.get i col) = f i) :
    (rows.map Fin.val).foldlM (clearRow source col factor) (.ofTandem t) =
      done (sweep source f before rows t.work)
        (.ofTandem ⟨addRows source f rows t.work, addRows source f rows t.record⟩) := by
  rw [← foldl_addRow]
  refine foldlM_sweep ofTandem (·.work) _ plain col (fun _ _ => rfl) (fun t i here => ?_) t nodup
    reads
  have wide := Fin.pos col
  rw [clearRow]
  simp only [ofTandem, read_bind (DenseMatrix.get_ofGrid t.work i col), computes, here,
    done_bind, change_eq (DenseMatrix.addRow_ofGrid t.work wide i source (f i)),
    read_bind (DenseMatrix.addRow_ofGrid t.record wide i source (f i))]
  rfl

theorem clearBelow_ofTandem {t : Grid.Tandem α n} {k : Fin n}
    (nonzero : (t.work.get (t.work.pivotRow k k) k == 0) = false) :
    clearBelow n (.ofTandem t) k =
      done (columnEvents k t.work) (.ofTandem (t.cleared k)) := by
  let swapped := t.swapRows (t.work.pivotRow k k) k
  have best : searchPivot (ofTandem t).work k k = .ok (t.work.pivotRow k k).val :=
    searchPivot_ofGrid t.work k k
  have pivot : (ofTandem swapped).work.get k k = .ok (t.work.get (t.work.pivotRow k k) k) :=
    DenseMatrix.get_swapRows_ofGrid t.work _ k k
  rw [clearBelow, read_bind best, exchange_ofTandem, done_bind, read_bind pivot, mark_bind,
    ← map_val_rowsBelow, clearRows_ofTandem (quotientBy_eq nonzero) swapped (nodup_rowsBelow k)
      fun _ _ => rfl, behind_done, behind_done, addRows_below, addRows_below]
  rw [← List.append_assoc]
  rfl

/-- The columns are cleared one after the other, and the pivots stay in the diagonal. -/
theorem triangularize_ofTandem {P : α → Prop} (solid : ∀ x, P x → (x == 0) = false)
    (columns : List (Fin n)) (t : Grid.Tandem α n) (pivots : AllPivots P columns t.work) :
    (columns.map Fin.val).foldlM (clearBelow n) (.ofTandem t) =
        done (forwardEvents columns t.work) (.ofTandem (columns.foldl (fun t k => t.cleared k) t)) ∧
      columns.foldlM Grid.Tandem.clearBelow t = .ok (columns.foldl (fun t k => t.cleared k) t) := by
  induction columns generalizing t with
  | nil => exact ⟨rfl, rfl⟩
  | cons k rest ih =>
    have nonzero := solid _ pivots.1
    obtain ⟨watched, plain⟩ := ih (t.cleared k) pivots.2
    constructor
    · rw [List.map_cons, List.foldlM_cons, clearBelow_ofTandem nonzero, done_bind, watched,
        behind_done]
      rfl
    · rw [List.foldlM_cons, Grid.Tandem.clearBelow_of_nonzero nonzero]
      exact plain

theorem cleared_diagonal {P : α → Prop} {t : Grid.Tandem α n}
    (pivots : AllPivots P (List.finRange n) t.work) (j : Fin n) :
    P (((List.finRange n).foldl (fun t k => t.cleared k) t).work.get j j) := by
  let Cleared (k : Nat) (t : Grid.Tandem α n) : Prop :=
    AllPivots P ((List.finRange n).drop k) t.work ∧ ∀ j : Fin n, j.val < k → P (t.work.get j j)
  let step (t : Grid.Tandem α n) (k : Fin n) : Except Fault (Grid.Tandem α n) := .ok (t.cleared k)
  have all : (List.finRange n).foldlM step t = .ok _ :=
    Checked.foldlM_eq_ok id (List.finRange n) (fun _ _ _ => rfl) t
  obtain ⟨final, reached, _, diagonal⟩ :
      ∃ final, (List.finRange n).foldlM step t = .ok final ∧ Cleared n final := by
    refine Grid.foldlM_finRange step Cleared (fun k t ⟨pivots, diagonal⟩ => ?_)
      ⟨pivots, fun _ before => absurd before (Nat.not_lt_zero _)⟩
    rw [List.drop_eq_getElem_cons (by simp), List.getElem_finRange] at pivots
    exact ⟨t.cleared k, rfl, pivots.2, Grid.cleared_diagonal P pivots.1 diagonal⟩
  cases all.symm.trans reached
  exact diagonal j j.isLt

theorem normalize_ofTandem {t : Grid.Tandem α n} {k : Fin n}
    (nonzero : (t.work.get k k == 0) = false) :
    normalize (.ofTandem t) k =
      done [.divided (t.work.get k k),
          .working (DenseMatrix.ofGrid (t.work.scaleRow k (1 / t.work.get k k)))]
        (.ofTandem (t.scaleRow k (1 / t.work.get k k))) := by
  have wide := Fin.pos k
  rw [normalize]
  simp only [ofTandem, read_bind (DenseMatrix.get_ofGrid t.work k k), quotient_eq 1 nonzero,
    done_bind, change_eq (DenseMatrix.scaleRow_ofGrid t.work wide k _),
    read_bind (DenseMatrix.scaleRow_ofGrid t.record wide k _)]
  rfl

/-- No row is scaled twice, so every divisor is found in the diagonal as it was. -/
theorem normalizes {P : α → Prop} (solid : ∀ x, P x → (x == 0) = false) {columns : List (Fin n)}
    (nodup : columns.Nodup) (t : Grid.Tandem α n) (diagonal : ∀ j ∈ columns, P (t.work.get j j)) :
    ∃ events final, (columns.map Fin.val).foldlM normalize (.ofTandem t) =
        done events (.ofTandem final) ∧
      columns.foldlM Grid.Tandem.normalize t = .ok final ∧ ∀ d, .divided d ∈ events → P d := by
  induction columns generalizing t with
  | nil => exact ⟨[], t, rfl, rfl, by simp⟩
  | cons k rest ih =>
    obtain ⟨fresh, nodup⟩ := List.nodup_cons.mp nodup
    obtain ⟨pivot, others⟩ := List.forall_mem_cons.mp diagonal
    have nonzero := solid _ pivot
    obtain ⟨events, final, watched, plain, divides⟩ :=
      ih nodup (t.scaleRow k (1 / t.work.get k k)) fun j member => by
        have apart : j ≠ k := fun same => fresh (same ▸ member)
        rw [Grid.Tandem.scaleRow, Grid.get_scaleRow, if_neg apart]
        exact others j member
    have first := normalize_ofTandem nonzero
    refine ⟨[.divided (t.work.get k k),
        .working (DenseMatrix.ofGrid (t.work.scaleRow k (1 / t.work.get k k)))] ++ events,
      final, ?_, ?_, ?_⟩
    · rw [List.map_cons, List.foldlM_cons, first, done_bind, watched, behind_done]
    · rw [List.foldlM_cons, Grid.Tandem.normalize_of_nonzero nonzero]
      exact plain
    · intro d member
      rcases List.mem_append.mp member with here | later
      · simp only [List.mem_cons, List.not_mem_nil, or_false, reduceCtorEq,
          Event.divided.injEq] at here
        rw [here]
        exact pivot
      · exact divides d later

def rowsAbove (k : Fin n) : List (Fin n) :=
  ((List.finRange n).take k).reverse

theorem map_val_rowsAbove (k : Fin n) : (rowsAbove k).map Fin.val = (List.range k).reverse := by
  rw [rowsAbove, List.map_reverse, List.map_take, List.map_coe_finRange_eq_range, List.take_range,
    Nat.min_eq_left k.isLt.le]

theorem mem_rowsAbove {k i : Fin n} : i ∈ rowsAbove k ↔ i < k := by
  rw [rowsAbove, List.mem_reverse, Grid.mem_take_finRange, Fin.lt_def]

theorem nodup_rowsAbove (k : Fin n) : (rowsAbove k).Nodup :=
  List.nodup_reverse.mpr ((List.nodup_finRange n).sublist (List.take_sublist _ _))

theorem addRows_above (k : Fin n) (g : Grid α n n) {p : Nat} (h : Grid α n p) :
    addRows k (fun i => -(g.get i k)) (rowsAbove k) h =
      h.addMultiples k (Grid.factorsAbove k g) := by
  rw [addRows_eq (nodup_rowsAbove k) (by simp [mem_rowsAbove])]
  congr 1
  funext i
  simp [Grid.factorsAbove, mem_rowsAbove]

theorem clearAbove_ofTandem (t : Grid.Tandem α n) (k : Fin n) :
    clearAbove (.ofTandem t) k =
      done (sweep k (fun i => -(t.work.get i k)) [] (rowsAbove k) t.work)
        (.ofTandem (t.clearAbove k)) := by
  have negates (x : α) : (pure (-x) : Run α α) = done [] (-x) := rfl
  rw [clearAbove, ← map_val_rowsAbove, clearRows_ofTandem negates t (nodup_rowsAbove k)
    fun _ _ => rfl, addRows_above, addRows_above]
  rfl

theorem clearsAbove (columns : List (Fin n)) (t : Grid.Tandem α n) :
    ∃ events, (columns.map Fin.val).foldlM clearAbove (.ofTandem t) =
        done events (.ofTandem (columns.foldl Grid.Tandem.clearAbove t)) ∧
      ∀ d, .divided d ∉ events := by
  induction columns generalizing t with
  | nil => exact ⟨[], rfl, by simp⟩
  | cons k rest ih =>
    obtain ⟨events, watched, divides⟩ := ih (t.clearAbove k)
    have first := clearAbove_ofTandem t k
    refine ⟨sweep k (fun i => -(t.work.get i k)) [] (rowsAbove k) t.work ++ events, ?_,
      fun d member => ?_⟩
    · rw [List.map_cons, List.foldlM_cons, first, done_bind, watched, behind_done]
      rfl
    · rcases List.mem_append.mp member with here | later
      · rcases mem_sweep here with none | ⟨next, same⟩
        · contradiction
        · contradiction
      · exact divides d later

theorem backSubstitute_ofTandem {P : α → Prop} (solid : ∀ x, P x → (x == 0) = false)
    (t : Grid.Tandem α n) (diagonal : ∀ j, P (t.work.get j j)) :
    ∃ events normalized, backSubstitute n (.ofTandem t) =
        done events
          (.ofTandem ((List.finRange n).reverse.foldl Grid.Tandem.clearAbove normalized)) ∧
      (List.finRange n).foldlM Grid.Tandem.normalize t = .ok normalized ∧
      ∀ d, .divided d ∈ events → P d := by
  obtain ⟨ones, normalized, first, plain, divides⟩ :=
    normalizes solid (List.nodup_finRange n) t fun j _ => diagonal j
  obtain ⟨zeros, second, none⟩ := clearsAbove (List.finRange n).reverse normalized
  refine ⟨ones ++ zeros, normalized, ?_, plain, fun d member => ?_⟩
  · rw [List.map_reverse] at second
    rw [backSubstitute, ← List.map_coe_finRange_eq_range, first, done_bind, second, behind_done]
  · exact (List.mem_append.mp member).elim (divides d) fun later => absurd later (none d)

end Pair

variable {α : Type} [Scalar α] {n : Nat}

/-- What is seen behind the determinant: the same columns once more, and then a part in which
every divisor has been tested by the determinant. -/
theorem reduces_ofGrid {events : List (Event α)} {g : Grid α n n}
    (pivots : AllPivots (Vouched events) (List.finRange n) g)
    (shown : events.filter (!·.isTest) = forwardEvents (List.finRange n) g) :
    ∃ behind, ∃ triangular reduced : Grid.Tandem α n,
      Pair.triangularize n (.ofTandem ⟨g, Grid.identity n⟩) =
        done (events.filter (!·.isTest)) (.ofTandem triangular) ∧
      Pair.backSubstitute n (.ofTandem triangular) = done behind (.ofTandem reduced) ∧
      Grid.Tandem.reduce ⟨g, Grid.identity n⟩ = .ok reduced ∧
      ∀ d, .divided d ∈ behind → Vouched events d := by
  have solid (x : α) (vouched : Vouched events x) : (x == 0) = false :=
    ne_zero_of_not_isZero vouched.1
  let start : Grid.Tandem α n := ⟨g, Grid.identity n⟩
  obtain ⟨forward, plain⟩ := Pair.triangularize_ofTandem solid (List.finRange n) start pivots
  obtain ⟨behind, normalized, back, scaled, divides⟩ :=
    Pair.backSubstitute_ofTandem solid _ (Pair.cleared_diagonal (t := start) pivots)
  refine ⟨behind, _, _, ?_, back, ?_, divides⟩
  · rw [shown, Pair.triangularize, ← List.map_coe_finRange_eq_range]
    exact forward
  · rw [Grid.Tandem.reduce, plain, Checked.ok_bind, scaled]
    rfl

/-- How the inverse of a matrix goes on behind a determinant `size` that does not count as zero.
It shows once more what the determinant has shown but for the tests, namely the pivots and all
states of the working matrix, and returns a matrix of the same shape. -/
structure Repeats (m : DenseMatrix α) (size : α) : Prop where
  returns : ∃ h : Grid α m.rows m.rows, (inverse m).outcome = .ok (DenseMatrix.ofGrid h)
  forward : (Pair.triangularize m.rows ⟨m, DenseMatrix.ofGrid (Grid.identity m.rows)⟩).events =
    (determinant m).events.filter (!·.isTest)
  shows : ∃ behind, (inverse m).events =
    (determinant m).events ++ .tested size false ::
      ((determinant m).events.filter (!·.isTest) ++ behind)

structure Follows (m : DenseMatrix α) (size : α) : Prop where
  computed : (determinant m).outcome = .ok size
  size_eq : m.determinant.outcome = .ok size
  outcome_eq : (inverse m).outcome = m.inverse.outcome
  singular : (inverse m).outcome = .error .singular ↔ isZero size = true
  repeats : isZero size = false → Repeats m size
  divides : ∀ d, .divided d ∈ (inverse m).events → Vouched (determinant m).events d

theorem Follows.vouches {m : DenseMatrix α} {size : α} (square : m.cols = m.rows)
    (follows : Follows m size) : Vouches (inverse m).events := by
  have starts : (determinant m).events ⊆ (inverse m).events := by
    rw [inverse, if_pos square]
    exact events_subset_bind
  exact fun d member => (follows.divides d member).mono starts

section Continuations

variable {events : List (Event α)} {size : α} {g : Grid α n n}

theorem inverse_of_zero (reached : determinant (DenseMatrix.ofGrid g) = done events size)
    (zero : isZero size = true) :
    inverse (DenseMatrix.ofGrid g) = ⟨events ++ [.tested size true], .error .singular⟩ := by
  have square : inverse (DenseMatrix.ofGrid g) = _ := if_pos rfl
  rw [square, reached, done_bind, test, zero, done_bind, if_pos rfl, behind_behind]
  exact congrArg (Run.mk · _) (List.append_nil _)

theorem inverse_of_nonzero {behind : List (Event α)} {triangular reduced : Grid.Tandem α n}
    (reached : determinant (DenseMatrix.ofGrid g) = done events size)
    (nonzero : isZero size = false)
    (forward : Pair.triangularize n (.ofTandem ⟨g, Grid.identity n⟩) =
      done (events.filter (!·.isTest)) (.ofTandem triangular))
    (back : Pair.backSubstitute n (.ofTandem triangular) = done behind (.ofTandem reduced)) :
    inverse (DenseMatrix.ofGrid g) =
      done (events ++ .tested size false :: (events.filter (!·.isTest) ++ behind))
        (DenseMatrix.ofGrid reduced.record) := by
  have square : inverse (DenseMatrix.ofGrid g) = _ := if_pos rfl
  have identity : DenseMatrix.identity ((DenseMatrix.ofGrid g).rows : Int) =
    .ok (DenseMatrix.ofGrid (Grid.identity n : Grid α n n)) := DenseMatrix.identity_natCast n
  have triangularizes : Pair.triangularize (DenseMatrix.ofGrid g).rows
    ⟨DenseMatrix.ofGrid g, DenseMatrix.ofGrid (Grid.identity n)⟩ = _ := forward
  have substitutes : Pair.backSubstitute (DenseMatrix.ofGrid g).rows (.ofTandem triangular) = _ :=
    back
  rw [square, reached, done_bind, test, nonzero, done_bind, if_neg Bool.false_ne_true,
    read_bind identity, triangularizes, done_bind, substitutes, done_bind, pure_eq]
  simp only [behind_done, List.append_nil, List.singleton_append, Pair.ofTandem]

theorem follows_of_zero (reached : determinant (DenseMatrix.ofGrid g) = done events size)
    (plain : g.determinant.outcome = .ok size) (tested : Tested (List.finRange n) g events size)
    (zero : isZero size = true) : Follows (DenseMatrix.ofGrid g) size := by
  have run := inverse_of_zero reached zero
  have model : g.inverse.outcome = .error .singular := by
    rw [Grid.inverse, Calculation.outcome_bind, plain, Checked.ok_bind, zero]
    rfl
  refine ⟨by rw [reached]; rfl, (DenseMatrix.determinant_ofGrid g).trans plain, ?_, ?_, ?_, ?_⟩
  · rw [run, DenseMatrix.inverse_ofGrid, model]
    rfl
  · rw [run]
    exact ⟨fun _ => zero, fun _ => rfl⟩
  · intro nonzero
    rw [zero] at nonzero
    contradiction
  · intro d divides
    rw [run] at divides
    rw [reached]
    rcases List.mem_append.mp divides with before | here
    · exact tested.divides d before
    · cases List.mem_singleton.mp here

theorem follows_of_nonzero (reached : determinant (DenseMatrix.ofGrid g) = done events size)
    (plain : g.determinant.outcome = .ok size) (tested : Tested (List.finRange n) g events size)
    (apart : size ≠ 0) (nonzero : isZero size = false) : Follows (DenseMatrix.ofGrid g) size := by
  obtain ⟨pivots, shown⟩ := tested.ends.resolve_left apart
  obtain ⟨behind, triangular, reduced, forward, back, reduces, vouched⟩ :=
    reduces_ofGrid pivots shown
  have run := inverse_of_nonzero reached nonzero forward back
  have model : g.inverse.outcome = .ok reduced.record := by
    rw [Grid.inverse, Calculation.outcome_bind, plain, Checked.ok_bind, nonzero,
      if_neg Bool.false_ne_true, Calculation.outcome_bind, Calculation.outcome_ofExcept, reduces]
    rfl
  refine ⟨by rw [reached]; rfl, (DenseMatrix.determinant_ofGrid g).trans plain, ?_, ?_, ?_, ?_⟩
  · rw [run, DenseMatrix.inverse_ofGrid, model]
    rfl
  · rw [run, nonzero]
    exact ⟨fun refused => (by cases refused), fun zero => (by cases zero)⟩
  · intro _
    refine ⟨⟨reduced.record, by rw [run]; rfl⟩, ?_, behind, ?_⟩
    · rw [reached]
      exact congrArg Run.events forward
    · rw [run, reached]
      rfl
  · intro d divides
    rw [run] at divides
    rw [reached]
    rcases List.mem_append.mp divides with before | later
    · exact tested.divides d before
    rcases List.mem_cons.mp later with same | again
    · cases same
    rcases List.mem_append.mp again with repeated | after
    · exact tested.divides d (List.mem_of_mem_filter repeated)
    · exact vouched d after

end Continuations

theorem follows_ofGrid (zero : isZero (0 : α) = true) (g : Grid α n n) :
    ∃ size, Follows (DenseMatrix.ofGrid g) size := by
  obtain ⟨events, size, reached, plain, tested⟩ := determinant_ofGrid g
  refine ⟨size, ?_⟩
  cases counts : isZero size with
  | true => exact follows_of_zero reached plain tested counts
  | false =>
    refine follows_of_nonzero reached plain tested (fun same => ?_) counts
    rw [same, zero] at counts
    contradiction

/-- The inverse of a square matrix goes through the pivots and the working matrices of the
determinant, and divides by numbers only that the determinant has tested. -/
theorem inverse_follows_determinant (zero : isZero (0 : α) = true) {m : DenseMatrix α}
    (square : m.cols = m.rows) : ∃ size, Follows m size := by
  obtain ⟨n, g, rfl⟩ := DenseMatrix.exists_grid_of_square m square
  exact follows_ofGrid zero g

/-- Infinite cells and cells that are no numbers are no exception. -/
theorem inverse_follows_determinant_not_finite :
    ∃ size, Follows (DenseMatrix.ofGrid (Grid.ofFn fun (i j : Fin 2) =>
      if i = j then (1 / 0 : Float) else 0 / 0)) size :=
  inverse_follows_determinant rfl rfl

end MatrixCalculator.Watched
