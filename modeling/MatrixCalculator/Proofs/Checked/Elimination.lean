import MatrixCalculator.Proofs.Checked.RowOperation
import MatrixCalculator.Proofs.Grid.Inverse

/-! Checked elimination. The determinant and the inverse divide by pivots only, the inverse by
those that the determinant has found before, and so they do what they do on whole grids. -/
namespace MatrixCalculator.Checked

def quotientBy (pivot x : Float) : Except Fault Float := do
  return -(← divide x pivot)

def exchange (m : DenseMatrix Float) (i j : Nat) : Except Fault (DenseMatrix Float) :=
  if i = j then .ok m else m.swapRows i j

def determinantFrom (n : Nat) : List Nat → DenseMatrix Float → Float → Except Fault Float
  | [], _, product => .ok product
  | k :: rest, work, product => do
    let p ← pivotRow work k k
    if ← isZero (← work.get p k) then return 0
    else
      let swapped ← exchange work p k
      let pivot ← swapped.get k k
      let below ← (between (k + 1) n).foldlM (clearRow k k (quotientBy pivot)) swapped
      determinantFrom n rest below ((if p = k then product else -product) * pivot)

def determinant (m : DenseMatrix Float) : Except Fault Float :=
  if m.cols = m.rows then determinantFrom m.rows (List.range m.rows) m 1
  else .error (.notSquare .determinant)

namespace Pair

def exchange (p : Pair) (i j : Nat) : Except Fault Pair := do
  return ⟨← Checked.exchange p.work i j, ← Checked.exchange p.record i j⟩

def clearBelow (n : Nat) (p : Pair) (k : Nat) : Except Fault Pair := do
  let best ← pivotRow p.work k k
  let swapped ← p.exchange best k
  let pivot ← swapped.work.get k k
  (between (k + 1) n).foldlM (Pair.clearRow k k (quotientBy pivot)) swapped

def normalize (p : Pair) (k : Nat) : Except Fault Pair := do
  let factor ← divide 1 (← p.work.get k k)
  return ⟨← p.work.scaleRow k factor, ← p.record.scaleRow k factor⟩

def clearAbove (p : Pair) (k : Nat) : Except Fault Pair :=
  (List.range k).reverse.foldlM (Pair.clearRow k k fun x => .ok (-x)) p

def reduce (n : Nat) (p : Pair) : Except Fault Pair := do
  let triangular ← (List.range n).foldlM (clearBelow n) p
  let normalized ← (List.range n).foldlM normalize triangular
  (List.range n).reverse.foldlM clearAbove normalized

end Pair

def inverse (m : DenseMatrix Float) : Except Fault (DenseMatrix Float) :=
  if m.cols = m.rows then do
    if ← isZero (← determinant m) then throw .singular
    else
      let reduced ← Pair.reduce m.rows ⟨m, ← DenseMatrix.identity m.rows⟩
      return reduced.record
  else .error (.notSquare .inverse)

def timesPower (result base : DenseMatrix Float) (k : Nat) : Except Fault (DenseMatrix Float) :=
  if k = 0 then .ok result
  else do
    let next ← timesOdd result base k
    if k / 2 = 0 then return next
    else timesPower next (← base.mul base) (k / 2)
termination_by k
decreasing_by omega
where
  timesOdd (result base : DenseMatrix Float) (k : Nat) : Except Fault (DenseMatrix Float) :=
    if k % 2 = 1 then result.mul base else .ok result

def powerBase (m : DenseMatrix Float) (k : Int) : Except Fault (DenseMatrix Float) :=
  if k < 0 then inverse m else .ok m

def power (m : DenseMatrix Float) (exponent : Float) : Except (Stop Fault) (DenseMatrix Float) :=
  if m.cols = m.rows then do
    if ← isIntegral exponent then
      let k ← nearest exponent
      let base ← powerBase m k
      let one ← DenseMatrix.identity m.rows
      timesPower one base k.natAbs
    else throw (.fault .fractionalMatrixPower)
  else .error (.fault (.notSquare .power))

variable {n : Nat}

theorem quotientBy_eq_ok {pivot : Float} (nonzero : (pivot == 0) = false) (x : Float) :
    quotientBy pivot x = .ok (-(x / pivot)) := by
  rw [quotientBy, divide_eq_ok x nonzero]
  rfl

theorem factors_below (k : Fin n) (pivot : Float) (g : Grid Float n n) :
    factors (between (k + 1) n) k (fun x => -(x / pivot)) g = Grid.factorsBelow k pivot g := by
  funext r
  have member : r.val ∈ between (k + 1) n ↔ k < r := by
    rw [mem_between]
    have inside := r.isLt
    constructor <;> omega
  simp only [factors, Grid.factorsBelow, member]

theorem factors_above (k : Fin n) (g : Grid Float n n) :
    factors (List.range k).reverse k (fun x => -x) g = Grid.factorsAbove k g := by
  funext r
  simp [factors, Grid.factorsAbove]

theorem not_mem_between (k : Nat) : k ∉ between (k + 1) n := by
  rw [mem_between]
  omega

theorem exchange_ofGrid (g : Grid Float n n) (i j : Fin n) :
    exchange (DenseMatrix.ofGrid g) i j = .ok (DenseMatrix.ofGrid (g.swapRows i j)) := by
  unfold exchange
  split
  · next same => rw [Fin.ext same, Grid.swapRows_self]
  · exact DenseMatrix.swapRows_ofGrid g (Fin.pos j) i j

theorem clearBelow_ofGrid {pivot : Float} (nonzero : (pivot == 0) = false) (k : Fin n)
    (g : Grid Float n n) :
    (between (k + 1) n).foldlM (clearRow k k (quotientBy pivot)) (DenseMatrix.ofGrid g) =
      .ok (DenseMatrix.ofGrid (g.addMultiples k (Grid.factorsBelow k pivot g))) := by
  rw [clearRows_ofGrid (quotientBy_eq_ok nonzero) k (fun i member => (mem_between.mp member).2)
    (nodup_between _ _) (not_mem_between k), factors_below]

theorem determinantFrom_ofGrid (columns : List (Fin n)) (g : Grid Float n n) (product : Float) :
    determinantFrom n (columns.map Fin.val) (DenseMatrix.ofGrid g) product =
      (Grid.eliminateFrom columns g product).map (·.determinant) := by
  induction columns generalizing g product with
  | nil => rfl
  | cons k rest ih =>
    rw [List.map_cons, determinantFrom, pivotRow_ofGrid, ok_bind, DenseMatrix.get_ofGrid, ok_bind,
      isZero_eq_ok, ok_bind]
    cases small : MatrixCalculator.isZero (g.get (g.pivotRow k k) k) with
    | true =>
      simp [Grid.eliminateFrom, small]
      rfl
    | false =>
      rw [if_neg Bool.false_ne_true, exchange_ofGrid, ok_bind, DenseMatrix.get_swapRows_ofGrid,
        ok_bind, clearBelow_ofGrid (ne_zero_of_not_isZero small), ok_bind, ih,
        Grid.eliminateFrom_cons small]
      simp only [Fin.val_inj]
      rfl

theorem determinant_ofGrid (g : Grid Float n n) :
    determinant (DenseMatrix.ofGrid g) = g.determinant.outcome := by
  rw [Grid.determinant_outcome, Grid.eliminate, ← determinantFrom_ofGrid,
    List.map_coe_finRange_eq_range]
  exact if_pos rfl

namespace Pair

theorem exchange_ofTandem (t : Grid.Tandem Float n) (i j : Fin n) :
    exchange (.ofTandem t) i j = .ok (.ofTandem (t.swapRows i j)) := by
  rw [exchange]
  simp only [ofTandem, exchange_ofGrid, ok_bind]
  rfl

theorem clearBelow_ofTandem {t : Grid.Tandem Float n} {k : Fin n}
    (nonzero : (t.work.get (t.work.pivotRow k k) k == 0) = false) :
    clearBelow n (.ofTandem t) k = .ok (.ofTandem (t.cleared k)) := by
  have best : Checked.pivotRow (ofTandem t).work k k = .ok (t.work.pivotRow k k).val :=
    pivotRow_ofGrid t.work k k
  have pivot : (ofTandem (t.swapRows (t.work.pivotRow k k) k)).work.get k k =
      .ok (t.work.get (t.work.pivotRow k k) k) :=
    DenseMatrix.get_swapRows_ofGrid t.work _ k k
  rw [clearBelow, best, ok_bind, exchange_ofTandem, ok_bind, pivot, ok_bind,
    clearRows_ofTandem (quotientBy_eq_ok nonzero) (fun i member => (mem_between.mp member).2)
      (nodup_between _ _) (not_mem_between k), factors_below]
  rfl

theorem normalize_ofTandem {t : Grid.Tandem Float n} {k : Fin n}
    (nonzero : (t.work.get k k == 0) = false) :
    normalize (.ofTandem t) k = .ok (.ofTandem (t.scaleRow k (1 / t.work.get k k))) := by
  rw [normalize]
  simp only [ofTandem, DenseMatrix.get_ofGrid, ok_bind, divide_eq_ok 1 nonzero]
  rw [DenseMatrix.scaleRow_ofGrid _ (Fin.pos k), DenseMatrix.scaleRow_ofGrid _ (Fin.pos k)]
  rfl

theorem clearAbove_ofTandem (t : Grid.Tandem Float n) (k : Fin n) :
    clearAbove (.ofTandem t) k = .ok (.ofTandem (t.clearAbove k)) := by
  have inside : ∀ i ∈ (List.range k).reverse, i < n := by
    intro i member
    have above := List.mem_range.mp (List.mem_reverse.mp member)
    exact above.trans k.isLt
  rw [clearAbove, clearRows_ofTandem (fun _ => rfl) inside (List.nodup_reverse.mpr List.nodup_range)
    (by simp), factors_above]
  rfl

/-- What holds before column `k` is cleared: pivots ahead and a diagonal without zeros behind. -/
def Ready (k : Nat) (t : Grid.Tandem Float n) : Prop :=
  Grid.HasPivots ((List.finRange n).drop k) t.work ∧
    ∀ j : Fin n, j.val < k → (t.work.get j j == 0) = false

theorem Ready.step {k : Fin n} {t : Grid.Tandem Float n} (ready : Ready k t) :
    ∃ next, t.clearBelow k = .ok next ∧ clearBelow n (.ofTandem t) k = .ok (.ofTandem next) ∧
      Ready (k + 1) next := by
  obtain ⟨nonzero, later⟩ := ready.1.uncons
  have pivot := ne_zero_of_not_isZero nonzero
  exact ⟨t.cleared k, Grid.Tandem.clearBelow_of_nonzero pivot, clearBelow_ofTandem pivot, later,
    Grid.cleared_diagonal (fun x => (x == 0) = false) pivot ready.2⟩

/-- What holds before the pivot of row `k` is made one: no zero in the diagonal from there on. -/
def Triangular (k : Nat) (t : Grid.Tandem Float n) : Prop :=
  ∀ j : Fin n, k ≤ j.val → (t.work.get j j == 0) = false

theorem Triangular.step {k : Fin n} {t : Grid.Tandem Float n} (diagonal : Triangular k t) :
    ∃ next, t.normalize k = .ok next ∧ normalize (.ofTandem t) k = .ok (.ofTandem next) ∧
      Triangular (k + 1) next := by
  have pivot := diagonal k (Nat.le_refl _)
  refine ⟨_, Grid.Tandem.normalize_of_nonzero pivot, normalize_ofTandem pivot, ?_⟩
  intro j after
  have apart : j ≠ k := fun same => by omega
  show ((t.work.scaleRow k (1 / t.work.get k k)).get j j == 0) = false
  rw [Grid.get_scaleRow, if_neg apart]
  exact diagonal j (Nat.le_of_succ_le after)

theorem reduce_ofTandem {t : Grid.Tandem Float n} (ready : Ready 0 t) :
    ∃ final, t.reduce = .ok final ∧ reduce n (.ofTandem t) = .ok (.ofTandem final) := by
  -- Each pass leaves what the next one divides by: first the pivots, then the diagonal.
  obtain ⟨triangular, cleared, below, _, diagonal⟩ := Grid.foldlM_finRange_view ofTandem
    Grid.Tandem.clearBelow (fun p (k : Fin n) => clearBelow n p k) Ready
    (fun _ _ ready => ready.step) ready
  have start : Triangular 0 triangular := fun j _ => diagonal j j.isLt
  obtain ⟨normalized, scaled, ones, _⟩ := Grid.foldlM_finRange_view ofTandem
    Grid.Tandem.normalize (fun p (k : Fin n) => normalize p k) Triangular
    (fun _ _ diagonal => diagonal.step) start
  refine ⟨(List.finRange n).reverse.foldl Grid.Tandem.clearAbove normalized, ?_, ?_⟩
  · rw [Grid.Tandem.reduce, cleared, ok_bind, scaled]
    rfl
  · rw [reduce, foldlM_range, below, ok_bind, foldlM_range, ones, ok_bind,
      ← List.map_coe_finRange_eq_range, ← List.map_reverse, List.foldlM_map]
    exact foldlM_eq_ok ofTandem _ (fun t k _ => clearAbove_ofTandem t k) normalized

end Pair

theorem determinant_eq (m : DenseMatrix Float) : determinant m = m.determinant.outcome := by
  by_cases same : m.cols = m.rows
  · obtain ⟨n, g, rfl⟩ := DenseMatrix.exists_grid_of_square m same
    rw [determinant_ofGrid, DenseMatrix.determinant_ofGrid]
  · rw [determinant, if_neg same, DenseMatrix.determinant_of_not_square same]

theorem determinant_safe (m : DenseMatrix Float) :
    FailsOnly UserFault m.determinant.outcome := by
  by_cases same : m.cols = m.rows
  · obtain ⟨n, g, rfl⟩ := DenseMatrix.exists_grid_of_square m same
    obtain ⟨size, computed, _⟩ := Grid.determinant_cases g
    rw [DenseMatrix.determinant_ofGrid, computed]
    exact failsOnly_ok size
  · rw [DenseMatrix.determinant_of_not_square same]
    rfl

theorem inverse_cases (g : Grid Float n n) :
    (inverse (DenseMatrix.ofGrid g) = .error .singular ∧ g.inverse.outcome = .error .singular) ∨
    ∃ h : Grid Float n n, inverse (DenseMatrix.ofGrid g) = .ok (DenseMatrix.ofGrid h) ∧
      g.inverse.outcome = .ok h := by
  obtain ⟨size, computed, ended⟩ := Grid.determinant_cases g
  have square : inverse (DenseMatrix.ofGrid g) = _ := if_pos rfl
  rw [square, determinant_ofGrid, computed, ok_bind, isZero_eq_ok, ok_bind, Grid.inverse,
    Calculation.outcome_bind, computed, ok_bind]
  cases small : MatrixCalculator.isZero size with
  | true => exact .inl ⟨rfl, rfl⟩
  | false =>
    have pivots : Grid.HasPivots (List.finRange n) g := by
      refine ended.resolve_left fun zero => ?_
      subst zero
      have counts : MatrixCalculator.isZero (0 : Float) = true := rfl
      rw [counts] at small
      contradiction
    have ready : Pair.Ready 0 ⟨g, Grid.identity n⟩ :=
      ⟨pivots, fun _ before => absurd before (Nat.not_lt_zero _)⟩
    obtain ⟨final, reached, below⟩ := Pair.reduce_ofTandem ready
    have identity : DenseMatrix.identity ((DenseMatrix.ofGrid g).rows : Int) =
      .ok (DenseMatrix.ofGrid (Grid.identity n : Grid Float n n)) := DenseMatrix.identity_natCast n
    refine .inr ⟨final.record, ?_, ?_⟩
    · rw [if_neg Bool.false_ne_true, identity, ok_bind]
      show (Pair.reduce n (.ofTandem ⟨g, Grid.identity n⟩) >>= fun p => .ok p.record) = _
      rw [below]
      rfl
    · rw [if_neg Bool.false_ne_true, Calculation.outcome_bind, Calculation.outcome_ofExcept,
        reached]
      rfl

theorem inverse_eq (m : DenseMatrix Float) : inverse m = m.inverse.outcome := by
  by_cases same : m.cols = m.rows
  · obtain ⟨n, g, rfl⟩ := DenseMatrix.exists_grid_of_square m same
    rw [DenseMatrix.inverse_ofGrid]
    rcases inverse_cases g with ⟨checked, plain⟩ | ⟨h, checked, plain⟩
    · rw [checked, plain]
      rfl
    · rw [checked, plain]
      rfl
  · rw [inverse, if_neg same, DenseMatrix.inverse_of_not_square same]

theorem inverse_safe (m : DenseMatrix Float) :
    FailsOnly UserFault m.inverse.outcome := by
  rw [← inverse_eq]
  by_cases same : m.cols = m.rows
  · obtain ⟨n, g, rfl⟩ := DenseMatrix.exists_grid_of_square m same
    rcases inverse_cases g with ⟨checked, _⟩ | ⟨h, checked, _⟩
    · rw [checked]
      rfl
    · rw [checked]
      exact failsOnly_ok _
  · rw [inverse, if_neg same]
    rfl

theorem timesOdd_ofGrid (result base : Grid Float n n) (k : Nat) :
    timesPower.timesOdd (DenseMatrix.ofGrid result) (DenseMatrix.ofGrid base) k =
      .ok (DenseMatrix.ofGrid (if k % 2 = 1 then result.mul base else result)) := by
  unfold timesPower.timesOdd
  split
  · exact DenseMatrix.mul_ofGrid result base
  · rfl

theorem timesPower_ofGrid (result base : Grid Float n n) (k : Nat) :
    timesPower (DenseMatrix.ofGrid result) (DenseMatrix.ofGrid base) k =
      .ok (DenseMatrix.ofGrid (Grid.timesPower result base k)) := by
  induction k using Nat.strongRecOn generalizing result base with
  | ind k ih =>
    rw [timesPower, Grid.timesPower]
    split
    · rfl
    · next positive =>
      rw [timesOdd_ofGrid, ok_bind]
      dsimp only
      split
      · rfl
      · rw [DenseMatrix.mul_ofGrid, ok_bind]
        exact ih (k / 2) (by omega) _ _

theorem powerBase_cases (g : Grid Float n n) (k : Int) :
    (powerBase (DenseMatrix.ofGrid g) k = .error .singular ∧
      (if k < 0 then g.inverse.outcome else .ok g) = .error .singular) ∨
    ∃ h : Grid Float n n, powerBase (DenseMatrix.ofGrid g) k = .ok (DenseMatrix.ofGrid h) ∧
      (if k < 0 then g.inverse.outcome else .ok g) = .ok h := by
  unfold powerBase
  split
  · exact inverse_cases g
  · exact .inr ⟨g, rfl, rfl⟩

theorem power_cases (m : DenseMatrix Float) (exponent : Float) :
    power m exponent = liftM (m.power exponent).outcome ∧
      FailsOnly UserFault (m.power exponent).outcome := by
  by_cases same : m.cols = m.rows
  · obtain ⟨n, g, rfl⟩ := DenseMatrix.exists_grid_of_square m same
    have square : power (DenseMatrix.ofGrid g) exponent = _ := if_pos rfl
    rw [square, DenseMatrix.power_ofGrid, isIntegral_eq_ok, ok_bind]
    cases integral : MatrixCalculator.isIntegral exponent with
    | false => cases Scalar.nearest exponent <;> exact ⟨rfl, rfl⟩
    | true =>
      cases known : Double.exact exponent with
      | none =>
        have infinite : Scalar.exact exponent = none := known
        simp [MatrixCalculator.isIntegral, Scalar.nearest, infinite] at integral
      | some value =>
        have finite : Scalar.exact exponent = some value := known
        have identity : DenseMatrix.identity ((DenseMatrix.ofGrid g).rows : Int) =
          .ok (DenseMatrix.ofGrid (Grid.identity n : Grid Float n n)) :=
            DenseMatrix.identity_natCast n
        simp only [Scalar.nearest, finite, nearest, exact, known, Option.map_some]
        rcases powerBase_cases g (Rounding.nearest value) with
          ⟨checked, plain⟩ | ⟨h, checked, plain⟩
        · rw [plain]
          simp [checked]
          exact ⟨rfl, rfl⟩
        · rw [plain]
          simp [checked, identity, timesPower_ofGrid]
          exact ⟨rfl, failsOnly_ok _⟩
  · rw [power, if_neg same, DenseMatrix.power_of_not_square same]
    exact ⟨rfl, rfl⟩

end MatrixCalculator.Checked
