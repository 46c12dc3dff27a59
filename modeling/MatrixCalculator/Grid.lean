/-! Grids: rectangular arrays of cells, stored row by row. Cell `(i, j)` of an `m × n` grid
lies at offset `i * n + j`, and a grid is determined by its cells. -/
namespace MatrixCalculator

structure Grid (α : Type) (m n : Nat) where
  cells : Vector α (m * n)

namespace Grid

variable {α β : Type} {m n : Nat}

def offset (i : Fin m) (j : Fin n) : Fin (m * n) :=
  ⟨i * n + j, Nat.lt_of_lt_of_le (Nat.add_lt_add_left j.isLt _)
    (Nat.succ_mul i.val n ▸ Nat.mul_le_mul_right n i.isLt)⟩

def rowAt (k : Fin (m * n)) : Fin m :=
  ⟨k / n, Nat.div_lt_of_lt_mul (Nat.mul_comm m n ▸ k.isLt)⟩

def colAt (k : Fin (m * n)) : Fin n :=
  ⟨k % n, Nat.mod_lt _ (Nat.pos_of_lt_mul_left k.isLt)⟩

def get (g : Grid α m n) (i : Fin m) (j : Fin n) : α :=
  g.cells[offset i j]

def ofFn (f : Fin m → Fin n → α) : Grid α m n :=
  ⟨Vector.ofFn fun k => f (rowAt k) (colAt k)⟩

theorem rowAt_offset (i : Fin m) (j : Fin n) : rowAt (offset i j) = i := by
  have positive : 0 < n := Nat.zero_lt_of_lt j.isLt
  apply Fin.ext
  show (i.val * n + j.val) / n = i.val
  rw [Nat.mul_comm, Nat.mul_add_div positive, Nat.div_eq_of_lt j.isLt, Nat.add_zero]

theorem colAt_offset (i : Fin m) (j : Fin n) : colAt (offset i j) = j := by
  apply Fin.ext
  show (i.val * n + j.val) % n = j.val
  rw [Nat.mul_comm, Nat.mul_add_mod, Nat.mod_eq_of_lt j.isLt]

theorem offset_rowAt_colAt (k : Fin (m * n)) : offset (rowAt k) (colAt k) = k := by
  apply Fin.ext
  show k.val / n * n + k.val % n = k.val
  rw [Nat.mul_comm]
  exact Nat.div_add_mod k.val n

@[simp] theorem get_ofFn (f : Fin m → Fin n → α) (i : Fin m) (j : Fin n) :
    (ofFn f).get i j = f i j := by
  show (Vector.ofFn fun k => f (rowAt k) (colAt k))[(offset i j).val] = f i j
  rw [Vector.getElem_ofFn, Fin.eta, rowAt_offset, colAt_offset]

theorem ext {g h : Grid α m n} (cells : ∀ i j, g.get i j = h.get i j) : g = h := by
  obtain ⟨a⟩ := g
  obtain ⟨b⟩ := h
  congr 1
  apply Vector.ext
  intro k inside
  have at_k := cells (rowAt ⟨k, inside⟩) (colAt ⟨k, inside⟩)
  simpa [get, offset_rowAt_colAt] using at_k

@[simp] theorem ofFn_get (g : Grid α m n) : ofFn g.get = g :=
  ext fun i j => get_ofFn _ i j

def cast {m' n' : Nat} (rows : m = m') (cols : n = n') (g : Grid α m n) : Grid α m' n' :=
  ⟨g.cells.cast (by rw [rows, cols])⟩

@[simp] theorem cast_rfl (g : Grid α m n) : g.cast rfl rfl = g :=
  rfl

def map (f : α → β) (g : Grid α m n) : Grid β m n :=
  ofFn fun i j => f (g.get i j)

@[simp] theorem get_map (f : α → β) (g : Grid α m n) (i : Fin m) (j : Fin n) :
    (g.map f).get i j = f (g.get i j) :=
  get_ofFn _ i j

def set (g : Grid α m n) (i : Fin m) (j : Fin n) (x : α) : Grid α m n :=
  ofFn fun r c => if r = i ∧ c = j then x else g.get r c

@[simp] theorem get_set (g : Grid α m n) (i r : Fin m) (j c : Fin n) (x : α) :
    (g.set i j x).get r c = if r = i ∧ c = j then x else g.get r c :=
  get_ofFn _ r c

def transpose (g : Grid α m n) : Grid α n m :=
  ofFn fun i j => g.get j i

@[simp] theorem get_transpose (g : Grid α m n) (i : Fin n) (j : Fin m) :
    g.transpose.get i j = g.get j i :=
  get_ofFn _ i j

def row (g : Grid α m n) (i : Fin m) : List α :=
  (List.finRange n).map (g.get i)

def column (g : Grid α m n) (j : Fin n) : List α :=
  (List.finRange m).map fun i => g.get i j

def toRows (g : Grid α m n) : List (List α) :=
  (List.finRange m).map g.row

def toList (g : Grid α m n) : List α :=
  g.cells.toList

def entries (g : Grid α m n) : List (Fin m × Fin n × α) :=
  (List.finRange (m * n)).map fun k => (rowAt k, colAt k, g.cells[k])

end Grid

end MatrixCalculator
