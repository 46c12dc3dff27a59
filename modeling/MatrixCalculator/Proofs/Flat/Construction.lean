import MatrixCalculator.Proofs.Flat.Storage

/-! Operations that make a new storage. They lay out the cells of the result in one list, from
the lists of their operands or by storing at computed offsets, and the result is the storage of
the matrix that the operation on matrices makes. -/
namespace MatrixCalculator.Flat

open InPlace

variable {α β γ : Type} {m n p : Nat}

/-- The outcome of an operation, seen on what it makes. -/
def carried (view : β → γ) (outcome : Except Fault β) : Except Failure γ :=
  (outcome.map view).mapError .ofFault

/-- A new storage where a matrix is made, and the same refusals. -/
def stored : Except Fault (DenseMatrix α) → Except Failure (Storage α) :=
  carried .of

def ask (question : InPlace α β) (s : Storage α) : Except Failure β :=
  match question.run s with
  | .ok b _ => .ok b
  | .error e _ => .error e

/-- A change of a storage of one's own, of which nothing is left if the change fails. -/
def execute (change : InPlace α Unit) (s : Storage α) : Except Failure (Storage α) :=
  match change.run s with
  | .ok _ next => .ok next
  | .error e _ => .error e

theorem ask_of {question : InPlace α β} {m : DenseMatrix α} {outcome : Except Fault β}
    (refines : question.run (.of m) = answered m outcome) :
    ask question (.of m) = carried id outcome := by
  rw [ask, refines]
  cases outcome <;> rfl

theorem execute_ok {change : InPlace α Unit} {s next : Storage α}
    (reached : change.run s = .ok () next) : execute change s = .ok next := by
  rw [execute, reached]

theorem execute_of {change : InPlace α Unit} {m : DenseMatrix α}
    {outcome : Except Fault (DenseMatrix α)} (refines : change.run (.of m) = responded m outcome) :
    execute change (.of m) = stored outcome := by
  rw [execute, refines]
  cases outcome <;> rfl

section Constructors

variable [Zero α]

def construct (rows cols : Int) (data : Option (List α)) : Except Failure (Storage α) :=
  let size := (rows * cols).toNat
  if rows < 0 ∨ cols < 0 then .error (.ofFault (.invalidDimensions rows cols))
  else match data with
    | none => .ok ⟨rows.toNat, cols.toNat, List.replicate size 0⟩
    | some cells =>
      if cells.length = size then .ok ⟨rows.toNat, cols.toNat, cells⟩
      else .error (.ofFault (.elementCount rows.toNat cols.toNat cells.length))

def identity [One α] (n : Int) : Except Failure (Storage α) := do
  let zeros ← construct n n none
  execute (forM (List.range n.toNat) fun i => store (i * n.toNat + i) 1) zeros

def single (x : α) : Except Failure (Storage α) :=
  construct 1 1 (some [x])

/-- The items of rows that must have one length, and how many rows came before. -/
def gather (cols : Nat) : Nat → List (List α) → Except Failure (List α)
  | _, [] => .ok []
  | before, row :: rest =>
    if row.length = cols then do return row ++ (← gather cols (before + 1) rest)
    else .error (.ofFault (.raggedRow (before + 1) row.length cols))

def fromRows : List (List α) → Except Failure (Storage α)
  | [] => construct 0 0 none
  | first :: rest => do
    let data ← gather first.length 0 (first :: rest)
    construct (first :: rest).length first.length (some data)

def copy (s : Storage α) : Except Failure (Storage α) :=
  construct s.rows s.cols (some s.data)

end Constructors

def item (data : List α) (k : Nat) : Except Failure α :=
  match data[k]? with
  | some x => .ok x
  | none => .error (.beyondEnd k)

def sum [Zero α] [Add α] (a b : Storage α) : Except Failure (Storage α) :=
  if b.rows = a.rows ∧ b.cols = a.cols then
    construct a.rows a.cols (some (List.zipWith (· + ·) a.data b.data))
  else .error (.ofFault (.sumShapes a.rows a.cols b.rows b.cols))

def product [Zero α] [Add α] [Mul α] (a b : Storage α) : Except Failure (Storage α) :=
  if b.rows = a.cols then do
    let cells ← (List.range a.rows).mapM fun i =>
      (List.range b.cols).mapM fun j =>
        (List.range a.cols).foldlM (fun total k => do
          return total + (← item a.data (i * a.cols + k)) * (← item b.data (k * b.cols + j))) 0
    construct a.rows b.cols (some cells.flatten)
  else .error (.ofFault (.productShapes a.rows a.cols b.rows b.cols))

def scaled [Zero α] [Mul α] (s : Storage α) (factor : α) : Except Failure (Storage α) :=
  construct s.rows s.cols (some (s.data.map (· * factor)))

def transposed [Zero α] (s : Storage α) : Except Failure (Storage α) := do
  let zeros ← construct s.cols s.rows none
  execute (forM s.data.zipIdx fun x => store (x.2 % s.cols * s.rows + x.2 / s.cols) x.1) zeros

theorem construct_eq [Zero α] (rows cols : Int) (data : Option (List α)) :
    construct rows cols data = stored (DenseMatrix.new rows cols data) := by
  unfold construct DenseMatrix.new
  by_cases negative : rows < 0 ∨ cols < 0
  · simp only [if_pos negative]
    rfl
  · have size : (rows * cols).toNat = rows.toNat * cols.toNat := Int.toNat_mul (by omega) (by omega)
    simp only [if_neg negative, size]
    cases data with
    | none =>
      have zeros : List.replicate (rows.toNat * cols.toNat) 0 =
          (Grid.zero rows.toNat cols.toNat : Grid α _ _).toList := by
        apply Grid.eq_toList List.length_replicate
        intro i j
        rw [Grid.zero, Grid.get_ofFn, List.getElem?_replicate, if_pos (Grid.offset_inside i j)]
      rw [zeros]
      rfl
    | some cells =>
      simp only [DenseMatrix.ofList]
      split
      · rfl
      · rfl

theorem construct_toList [Zero α] (g : Grid α m n) :
    construct m n (some g.toList) = .ok (.ofGrid g) := by
  have size : ((m : Int) * n).toNat = m * n := by
    rw [← Int.natCast_mul, Int.toNat_natCast]
  have dimensions : ¬((m : Int) < 0 ∨ (n : Int) < 0) := by omega
  simp only [construct, size, if_neg dimensions, Grid.length_toList, if_pos]
  rfl

theorem construct_zeros [Zero α] (m n : Nat) :
    construct m n none = .ok (.ofGrid (Grid.zero m n : Grid α m n)) := by
  have dimensions : ¬((m : Int) < 0 ∨ (n : Int) < 0) := by omega
  rw [construct_eq, DenseMatrix.new, if_neg dimensions]
  rfl

theorem overwrite_identity [Zero α] [One α] (n : Nat) :
    (Grid.zero n n : Grid α n n).overwrite (fun _ _ => 1) ((List.finRange n).map fun i => (i, i)) =
      Grid.identity n := by
  apply Grid.ext
  intro r c
  rw [Grid.get_overwrite, Grid.get_identity, Grid.zero, Grid.get_ofFn]
  · simp [eq_comm]
  · exact (List.nodup_finRange n).map fun _ _ same => (Prod.mk.inj same).1
  · exact fun _ _ _ _ _ _ _ => rfl

theorem identity_eq [Zero α] [One α] (n : Int) :
    identity n = stored (DenseMatrix.identity n : Except Fault (DenseMatrix α)) := by
  unfold identity DenseMatrix.identity
  by_cases negative : n < 0
  · rw [if_pos negative, construct, if_pos (.inl negative)]
    rfl
  · obtain ⟨k, rfl⟩ := Int.eq_ofNat_of_zero_le (by omega : 0 ≤ n)
    have ones : (forM (List.range k) fun i => store (i * k + i) 1).run
        (.ofGrid (Grid.zero k k : Grid α k k)) = .ok () (.ofGrid (Grid.identity k)) := by
      rw [← List.map_coe_finRange_eq_range, List.forM_map, ← overwrite_identity]
      exact forM_overwrite (fun g i => store_ofGrid g i i 1) _ _
    rw [if_neg negative, construct_zeros, Checked.ok_bind, Int.toNat_natCast]
    exact execute_ok ones

theorem single_eq [Zero α] (x : α) : single x = .ok (.of (DenseMatrix.ofScalar x)) :=
  construct_toList (Grid.ofFn fun (_ _ : Fin 1) => x)

theorem gather_eq (cols before : Nat) (rows : List (List α)) :
    gather cols before rows = match rows.findIdx? fun row => row.length != cols with
      | some i => .error (.ofFault (.raggedRow (before + i + 1) ((rows[i]?).getD []).length cols))
      | none => .ok rows.flatten := by
  induction rows generalizing before with
  | nil => rfl
  | cons row rest ih =>
    rw [gather, List.findIdx?_cons]
    by_cases fits : row.length = cols
    · rw [if_pos fits, ih]
      simp only [fits, bne_self_eq_false]
      cases rest.findIdx? fun row => row.length != cols with
      | none => rfl
      | some i =>
        have shifted : before + 1 + i + 1 = before + (i + 1) + 1 := by omega
        simp [shifted]
    · simp [fits]

theorem fromRows_eq [Zero α] : ∀ rows : List (List α),
    fromRows rows = stored (DenseMatrix.ofRows rows)
  | [] => construct_zeros 0 0
  | first :: rest => by
    rw [fromRows, DenseMatrix.ofRows, gather_eq]
    cases (first :: rest).findIdx? fun row => row.length != first.length with
    | some i =>
      simp only [Nat.zero_add]
      rfl
    | none =>
      have dimensions : ¬(((first :: rest).length : Int) < 0 ∨ (first.length : Int) < 0) := by omega
      rw [Checked.ok_bind, construct_eq, DenseMatrix.new, if_neg dimensions]
      rfl

theorem copy_of [Zero α] (m : DenseMatrix α) : copy (.of m) = .ok (.of m) :=
  construct_toList m.grid

theorem item_toList (g : Grid α m n) (i : Fin m) (j : Fin n) :
    item g.toList (i * n + j) = .ok (g.get i j) := by
  rw [item, Grid.getElem?_toList]

theorem sum_of [Zero α] [Add α] (a b : DenseMatrix α) :
    sum (.of a) (.of b) = stored (a.add b) := by
  obtain ⟨m, n, g⟩ := a
  obtain ⟨m', n', h⟩ := b
  by_cases same : m' = m ∧ n' = n
  · obtain ⟨rfl, rfl⟩ := same
    have cells : List.zipWith (· + ·) g.toList h.toList = (g.add h).toList := by
      apply Grid.eq_toList (by simp)
      intro i j
      rw [List.getElem?_zipWith, Grid.getElem?_toList, Grid.getElem?_toList, Grid.get_add]
    refine (if_pos ⟨rfl, rfl⟩).trans ?_
    show construct m' n' (some (List.zipWith (· + ·) g.toList h.toList)) = _
    rw [cells, construct_toList, DenseMatrix.add, dif_pos ⟨rfl, rfl⟩]
    rfl
  · rw [DenseMatrix.add, dif_neg same]
    exact if_neg same

theorem foldlM_item [Zero α] [Add α] [Mul α] (g : Grid α m n) (h : Grid α n p) (i : Fin m)
    (j : Fin p) :
    (List.range n).foldlM (fun total k => do
      return total + (← item g.toList (i * n + k)) * (← item h.toList (k * p + j))) 0 =
        .ok ((g.mul h).get i j) := by
  rw [Grid.get_mul]
  refine (Checked.foldlM_range _ _).trans (Checked.foldlM_eq_ok id _ (fun total k _ => ?_) _)
  rw [id, item_toList, Checked.ok_bind, item_toList]
  rfl

theorem mapM_item [Zero α] [Add α] [Mul α] (g : Grid α m n) (h : Grid α n p) :
    ((List.range m).mapM fun i => (List.range p).mapM fun j =>
      (List.range n).foldlM (fun total k => do
        return total + (← item g.toList (i * n + k)) * (← item h.toList (k * p + j))) 0) =
      .ok (g.mul h).toRows := by
  rw [← @List.map_coe_finRange_eq_range m]
  refine Checked.mapM_eq_ok (q := (g.mul h).row) (fun i => ?_) _
  rw [← @List.map_coe_finRange_eq_range p]
  exact Checked.mapM_eq_ok (foldlM_item g h i) _

theorem product_of [Zero α] [Add α] [Mul α] (a b : DenseMatrix α) :
    product (.of a) (.of b) = stored (a.mul b) := by
  obtain ⟨m, n, g⟩ := a
  obtain ⟨n', p, h⟩ := b
  by_cases fits : n' = n
  · subst fits
    refine (if_pos rfl).trans ?_
    refine (congrArg (· >>= _) (mapM_item g h)).trans ?_
    rw [Checked.ok_bind, Grid.flatten_toRows, DenseMatrix.mul, dif_pos rfl]
    exact construct_toList _
  · rw [DenseMatrix.mul, dif_neg fits]
    exact if_neg fits

theorem scaled_of [Zero α] [Mul α] (m : DenseMatrix α) (factor : α) :
    scaled (.of m) factor = .ok (.of (m.scale factor)) := by
  have cells : m.grid.toList.map (· * factor) = (m.grid.scale factor).toList := by
    apply Grid.eq_toList (by simp)
    intro i j
    rw [List.getElem?_map, Grid.getElem?_toList, Grid.get_scale]
    rfl
  refine (congrArg (fun data => construct m.rows m.cols (some data)) cells).trans ?_
  exact construct_toList _

theorem zipIdx_toList (g : Grid α m n) : g.toList.zipIdx =
    (List.finRange (m * n)).map fun k => (g.get (Grid.rowAt k) (Grid.colAt k), k.val) := by
  apply List.ext_getElem (by simp)
  intro k _ inside
  simp [Grid.get, Grid.offset_rowAt_colAt, Grid.toList]

theorem overwrite_transpose [Zero α] (g : Grid α m n) :
    (Grid.zero n m).overwrite (fun _ p => g.get p.2 p.1)
      ((List.finRange (m * n)).map fun k => (Grid.colAt k, Grid.rowAt k)) = g.transpose := by
  apply Grid.ext
  intro c r
  rw [Grid.get_overwrite, Grid.get_transpose, if_pos]
  · exact List.mem_map.mpr ⟨Grid.offset r c, List.mem_finRange _,
      by rw [Grid.rowAt_offset, Grid.colAt_offset]⟩
  · refine (List.nodup_finRange _).map fun k l same => ?_
    obtain ⟨column, row⟩ := Prod.mk.inj same
    rw [← Grid.offset_rowAt_colAt k, row, column, Grid.offset_rowAt_colAt]
  · exact fun _ _ _ _ _ _ _ => rfl

theorem transposed_of [Zero α] (m : DenseMatrix α) :
    transposed (.of m) = .ok (.of m.transpose) := by
  obtain ⟨m, n, g⟩ := m
  have cells : (forM g.toList.zipIdx fun x => store (x.2 % n * m + x.2 / n) x.1).run
      (.ofGrid (Grid.zero n m)) = .ok () (.ofGrid g.transpose) := by
    rw [zipIdx_toList, List.forM_map, ← overwrite_transpose]
    exact forM_overwrite
      (fun h k => store_ofGrid h (Grid.colAt k) (Grid.rowAt k) _) _ _
  refine (congrArg (· >>= _) (construct_zeros n m)).trans ?_
  exact execute_ok cells

end MatrixCalculator.Flat
