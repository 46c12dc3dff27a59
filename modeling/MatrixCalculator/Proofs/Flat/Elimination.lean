import MatrixCalculator.Proofs.Checked.Elimination
import MatrixCalculator.Proofs.Flat.Construction

/-! Elimination and powers in flat storage. They work on copies, by the changes in place and the
operations that make new storages, and follow the checked calculations on matrices step by
step. -/
namespace MatrixCalculator.Flat

open Checked (between)
open InPlace

def larger (s : Storage Float) (col : Nat) (best : Nat × Float) (r : Nat) :
    Except Failure (Nat × Float) := do
  let candidate := Scalar.magnitude (← ask (cell r col) s)
  return if best.2 < candidate then (r, candidate) else best

def pivotRow (s : Storage Float) (col start : Nat) : Except Failure Nat := do
  let first ← ask (cell start col) s
  let best ← (between (start + 1) s.rows).foldlM (larger s col) (start, Scalar.magnitude first)
  return best.1

def exchange (s : Storage Float) (i j : Nat) : Except Failure (Storage Float) :=
  if i = j then .ok s else execute (swapRows i j) s

def clearRow (source col : Nat) (factor : Float → Except Fault Float) (s : Storage Float)
    (i : Nat) : Except Failure (Storage Float) := do
  let f ← carried id (factor (← ask (cell i col) s))
  execute (addRow i source f) s

def determinantFrom (n : Nat) : List Nat → Storage Float → Float → Except Failure Float
  | [], _, product => .ok product
  | k :: rest, work, product => do
    let p ← pivotRow work k k
    if ← carried id (Checked.isZero (← ask (cell p k) work)) then return 0
    else
      let swapped ← exchange work p k
      let pivot ← ask (cell k k) swapped
      let below ← (between (k + 1) n).foldlM (clearRow k k (Checked.quotientBy pivot)) swapped
      determinantFrom n rest below ((if p = k then product else -product) * pivot)

def determinant (s : Storage Float) : Except Failure Float :=
  if s.cols = s.rows then do determinantFrom s.rows (List.range s.rows) (← copy s) 1
  else .error (.ofFault (.notSquare .determinant))

structure Pair where
  work : Storage Float
  record : Storage Float

namespace Pair

def of (p : Checked.Pair) : Pair :=
  ⟨.of p.work, .of p.record⟩

def exchange (p : Pair) (i j : Nat) : Except Failure Pair := do
  return ⟨← Flat.exchange p.work i j, ← Flat.exchange p.record i j⟩

def clearRow (source col : Nat) (factor : Float → Except Fault Float) (p : Pair) (i : Nat) :
    Except Failure Pair := do
  let f ← carried id (factor (← ask (cell i col) p.work))
  return ⟨← execute (addRow i source f) p.work, ← execute (addRow i source f) p.record⟩

def clearBelow (n : Nat) (p : Pair) (k : Nat) : Except Failure Pair := do
  let best ← pivotRow p.work k k
  let swapped ← p.exchange best k
  let pivot ← ask (cell k k) swapped.work
  (between (k + 1) n).foldlM (clearRow k k (Checked.quotientBy pivot)) swapped

def normalize (p : Pair) (k : Nat) : Except Failure Pair := do
  let factor ← carried id (Checked.divide 1 (← ask (cell k k) p.work))
  return ⟨← execute (scaleRow k factor) p.work, ← execute (scaleRow k factor) p.record⟩

def clearAbove (p : Pair) (k : Nat) : Except Failure Pair :=
  (List.range k).reverse.foldlM (clearRow k k fun x => .ok (-x)) p

def reduce (n : Nat) (p : Pair) : Except Failure Pair := do
  let triangular ← (List.range n).foldlM (clearBelow n) p
  let normalized ← (List.range n).foldlM normalize triangular
  (List.range n).reverse.foldlM clearAbove normalized

end Pair

def inverse (s : Storage Float) : Except Failure (Storage Float) :=
  if s.cols = s.rows then do
    if ← carried id (Checked.isZero (← determinant s)) then throw (.ofFault .singular)
    else
      let work ← copy s
      let record ← identity s.rows
      let reduced ← Pair.reduce s.rows ⟨work, record⟩
      return reduced.record
  else .error (.ofFault (.notSquare .inverse))

def timesOdd (result base : Storage Float) (k : Nat) : Except Failure (Storage Float) :=
  if k % 2 = 1 then product result base else .ok result

def timesPower (result base : Storage Float) (k : Nat) : Except Failure (Storage Float) :=
  if k = 0 then .ok result
  else do
    let next ← timesOdd result base k
    if k / 2 = 0 then return next
    else timesPower next (← product base base) (k / 2)
termination_by k
decreasing_by omega

def powerBase (s : Storage Float) (k : Int) : Except Failure (Storage Float) :=
  if k < 0 then inverse s else .ok s

def power (s : Storage Float) (exponent : Float) : Except Failure (Storage Float) :=
  if s.cols = s.rows then do
    if ← (Checked.isIntegral exponent).mapError .stop then
      let k ← (Checked.nearest exponent).mapError fun e => .stop (.machine e)
      let base ← powerBase s k
      let one ← identity s.rows
      timesPower one base k.natAbs
    else throw (.ofFault .fractionalMatrixPower)
  else .error (.ofFault (.notSquare .power))

section Carrying

variable {ι β γ δ ε : Type}

theorem carried_bind {view : β → γ} {shown : δ → ε} {outcome : Except Fault β}
    {first : Except Failure γ} {next : β → Except Fault δ} {later : γ → Except Failure ε}
    (start : first = carried view outcome) (agree : ∀ b, later (view b) = carried shown (next b)) :
    (first >>= later) = carried shown (outcome >>= next) := by
  subst start
  cases outcome with
  | error fault => rfl
  | ok b => exact agree b

/-- Loops whose steps do the same to what is seen. -/
theorem foldlM_carried {view : β → γ} {step : γ → ι → Except Failure γ}
    {plain : β → ι → Except Fault β} (agree : ∀ b i, step (view b) i = carried view (plain b i))
    (items : List ι) (b : β) :
    items.foldlM step (view b) = carried view (items.foldlM plain b) := by
  induction items generalizing b with
  | nil => rfl
  | cons i rest ih =>
    rw [List.foldlM_cons, List.foldlM_cons]
    exact carried_bind (agree b i) ih

end Carrying

theorem larger_of (m : DenseMatrix Float) (col : Nat) (best : Nat × Float) (r : Nat) :
    larger (.of m) col best r = carried id (Checked.larger m col best r) :=
  carried_bind (ask_of (cell_of m r col)) fun _ => rfl

theorem pivotRow_of (m : DenseMatrix Float) (col start : Nat) :
    pivotRow (.of m) col start = carried id (Checked.pivotRow m col start) := by
  refine carried_bind (ask_of (cell_of m start col)) fun first => ?_
  exact carried_bind (foldlM_carried (larger_of m col) _ _) fun best => rfl

theorem exchange_of (m : DenseMatrix Float) (i j : Nat) :
    exchange (.of m) i j = stored (Checked.exchange m i j) := by
  unfold exchange Checked.exchange
  split
  · rfl
  · exact execute_of (swapRows_of m i j)

theorem clearRow_of (source col : Nat) (factor : Float → Except Fault Float)
    (m : DenseMatrix Float) (i : Nat) :
    clearRow source col factor (.of m) i = stored (Checked.clearRow source col factor m i) := by
  refine carried_bind (ask_of (cell_of m i col)) fun x => ?_
  refine carried_bind rfl fun f => ?_
  exact execute_of (addRow_of m i source f)

theorem determinantFrom_of (n : Nat) (columns : List Nat) (work : DenseMatrix Float)
    (product : Float) : determinantFrom n columns (.of work) product =
      carried id (Checked.determinantFrom n columns work product) := by
  induction columns generalizing work product with
  | nil => rfl
  | cons k rest ih =>
    refine carried_bind (pivotRow_of work k k) fun p => ?_
    refine carried_bind (ask_of (cell_of work p k)) fun candidate => ?_
    refine carried_bind rfl fun zero => ?_
    cases zero with
    | true => rfl
    | false =>
      refine carried_bind (exchange_of work p k) fun swapped => ?_
      refine carried_bind (ask_of (cell_of swapped k k)) fun pivot => ?_
      refine carried_bind (foldlM_carried (clearRow_of k k _) _ swapped) fun below => ?_
      exact ih below _

theorem determinant_of (m : DenseMatrix Float) :
    determinant (.of m) = carried id (Checked.determinant m) := by
  simp only [determinant, Checked.determinant, Storage.rows_of, Storage.cols_of, copy_of,
    Checked.ok_bind]
  split
  · exact determinantFrom_of _ _ _ _
  · rfl

namespace Pair

theorem exchange_of (p : Checked.Pair) (i j : Nat) :
    (of p).exchange i j = carried of (p.exchange i j) := by
  refine carried_bind (Flat.exchange_of p.work i j) fun work => ?_
  exact carried_bind (Flat.exchange_of p.record i j) fun record => rfl

theorem clearRow_of (source col : Nat) (factor : Float → Except Fault Float) (p : Checked.Pair)
    (i : Nat) :
    clearRow source col factor (of p) i = carried of (p.clearRow source col factor i) := by
  refine carried_bind (ask_of (cell_of p.work i col)) fun x => ?_
  refine carried_bind rfl fun f => ?_
  refine carried_bind (execute_of (addRow_of p.work i source f)) fun work => ?_
  exact carried_bind (execute_of (addRow_of p.record i source f)) fun record => rfl

theorem clearBelow_of (n : Nat) (p : Checked.Pair) (k : Nat) :
    clearBelow n (of p) k = carried of (p.clearBelow n k) := by
  refine carried_bind (pivotRow_of p.work k k) fun best => ?_
  refine carried_bind (exchange_of p best k) fun swapped => ?_
  refine carried_bind (ask_of (cell_of swapped.work k k)) fun pivot => ?_
  exact foldlM_carried (clearRow_of k k _) _ swapped

theorem normalize_of (p : Checked.Pair) (k : Nat) :
    normalize (of p) k = carried of (p.normalize k) := by
  refine carried_bind (ask_of (cell_of p.work k k)) fun x => ?_
  refine carried_bind rfl fun factor => ?_
  refine carried_bind (execute_of (scaleRow_of p.work k factor)) fun work => ?_
  exact carried_bind (execute_of (scaleRow_of p.record k factor)) fun record => rfl

theorem clearAbove_of (p : Checked.Pair) (k : Nat) :
    clearAbove (of p) k = carried of (p.clearAbove k) :=
  foldlM_carried (clearRow_of k k _) _ p

theorem reduce_of (n : Nat) (p : Checked.Pair) : reduce n (of p) = carried of (p.reduce n) := by
  refine carried_bind (foldlM_carried (clearBelow_of n) _ p) fun triangular => ?_
  refine carried_bind (foldlM_carried normalize_of _ triangular) fun normalized => ?_
  exact foldlM_carried clearAbove_of _ normalized

end Pair

theorem inverse_of (m : DenseMatrix Float) : inverse (.of m) = stored m.inverse.outcome := by
  rw [← Checked.inverse_eq]
  simp only [inverse, Checked.inverse, Storage.rows_of, Storage.cols_of, copy_of, Checked.ok_bind]
  split
  · refine carried_bind (determinant_of m) fun size => ?_
    refine carried_bind rfl fun zero => ?_
    cases zero with
    | true => rfl
    | false =>
      refine carried_bind (identity_eq _) fun record => ?_
      exact carried_bind (Pair.reduce_of _ ⟨m, record⟩) fun reduced => rfl
  · rfl

theorem timesOdd_of (result base : DenseMatrix Float) (k : Nat) :
    timesOdd (.of result) (.of base) k =
      stored (Checked.timesPower.timesOdd result base k) := by
  unfold timesOdd Checked.timesPower.timesOdd
  split
  · exact product_of result base
  · rfl

theorem timesPower_of (result base : DenseMatrix Float) (k : Nat) :
    timesPower (.of result) (.of base) k = stored (Checked.timesPower result base k) := by
  induction k using Nat.strongRecOn generalizing result base with
  | ind k ih =>
    rw [timesPower, Checked.timesPower]
    split
    · rfl
    · next positive =>
      refine carried_bind (timesOdd_of result base k) fun next => ?_
      split
      · rfl
      · exact carried_bind (product_of base base) fun squared => ih (k / 2) (by omega) _ _

theorem powerBase_of (m : DenseMatrix Float) (k : Int) :
    powerBase (.of m) k = stored (Checked.powerBase m k) := by
  unfold powerBase Checked.powerBase
  split
  · rw [inverse_of, Checked.inverse_eq]
  · rfl

theorem powered_of (m : DenseMatrix Float) (k : Int) :
    (do
      let base ← powerBase (.of m) k
      let one ← identity m.rows
      timesPower one base k.natAbs) =
    stored (do
      let base ← Checked.powerBase m k
      let one ← DenseMatrix.identity m.rows
      Checked.timesPower one base k.natAbs) := by
  refine carried_bind (powerBase_of m k) fun base => ?_
  refine carried_bind (identity_eq _) fun one => ?_
  exact timesPower_of one base _

theorem carried_eq_lift {β γ : Type} (view : β → γ) (outcome : Except Fault β) :
    carried view outcome =
      ((liftM outcome : Except (Checked.Stop Fault) β).map view).mapError .stop := by
  cases outcome <;> rfl

theorem power_checked (m : DenseMatrix Float) (exponent : Float) :
    power (.of m) exponent = ((Checked.power m exponent).map Storage.of).mapError .stop := by
  simp only [power, Checked.power, Storage.rows_of, Storage.cols_of, Checked.isIntegral_eq_ok]
  split
  · cases MatrixCalculator.isIntegral exponent with
    | false => rfl
    | true =>
      cases Checked.nearest exponent with
      | error e => rfl
      | ok k =>
        refine (powered_of m k).trans ((carried_eq_lift _ _).trans ?_)
        simp only [Checked.lift_bind]
        rfl
  · rfl

theorem power_of (m : DenseMatrix Float) (exponent : Float) :
    power (.of m) exponent = stored (m.power exponent).outcome := by
  rw [power_checked, (Checked.power_cases m exponent).1]
  exact (carried_eq_lift _ _).symm

end MatrixCalculator.Flat
