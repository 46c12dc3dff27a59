import MatrixCalculator.Grid.Arithmetic
import MatrixCalculator.Grid.RowOperation
import Mathlib.Data.List.FinRange

/-! The list of the cells of a grid. A list is that of a grid if it has the right length and
shows cell `(i, j)` at offset `i * n + j`; rows are exchanged by exchanging two slices of it, and
a loop that gives new numbers to cells leaves all others as they are. -/
namespace MatrixCalculator

def slice {α : Type} (data : List α) (start count : Nat) : List α :=
  (data.drop start).take count

def splice {α : Type} (data : List α) (start : Nat) (items : List α) : List α :=
  data.take start ++ items ++ data.drop (start + items.length)

theorem getElem?_slice {α : Type} (data : List α) (start : Nat) {count k : Nat}
    (inside : k < count) : (slice data start count)[k]? = data[start + k]? := by
  rw [slice, List.getElem?_take_of_lt inside, List.getElem?_drop]

theorem length_slice {α : Type} {data : List α} {start count : Nat}
    (inside : start + count ≤ data.length) : (slice data start count).length = count := by
  simp [slice]
  omega

theorem length_splice {α : Type} {data items : List α} {start : Nat}
    (inside : start + items.length ≤ data.length) :
    (splice data start items).length = data.length := by
  simp [splice]
  omega

theorem getElem?_splice {α : Type} {data items : List α} {start : Nat}
    (inside : start + items.length ≤ data.length) (k : Nat) :
    (splice data start items)[k]? =
      if start ≤ k ∧ k < start + items.length then items[k - start]? else data[k]? := by
  have reached : (data.take start).length = start := by simp; omega
  unfold splice
  split
  · next within =>
    rw [List.getElem?_append_left (by simp; omega), List.getElem?_append_right (by omega), reached]
  · next outside =>
    rcases Nat.lt_or_ge k start with before | after
    · rw [List.getElem?_append_left (by simp; omega), List.getElem?_append_left (by omega),
        List.getElem?_take_of_lt before]
    · rw [List.getElem?_append_right (by simp; omega), List.getElem?_drop]
      congr 1
      simp
      omega

theorem getElem?_flatten {α : Type} {rows : List (List α)} {n : Nat}
    (even : ∀ row ∈ rows, row.length = n) (i : Nat) {j : Nat} (inside : j < n) :
    rows.flatten[i * n + j]? = (rows[i]?).bind (·[j]?) := by
  induction rows generalizing i with
  | nil => rfl
  | cons row rest ih =>
    have width : row.length = n := even row List.mem_cons_self
    rw [List.flatten_cons]
    cases i with
    | zero =>
      rw [Nat.zero_mul, Nat.zero_add, List.getElem?_append_left (by omega)]
      rfl
    | succ i =>
      have shifted : (i + 1) * n + j = i * n + j + row.length := by
        rw [width, Nat.succ_mul]
        omega
      rw [shifted, List.getElem?_append_right (by omega), Nat.add_sub_cancel,
        ih (fun other member => even other (List.mem_cons_of_mem _ member))]
      rfl

theorem length_flatten {α : Type} {rows : List (List α)} {n : Nat}
    (even : ∀ row ∈ rows, row.length = n) : rows.flatten.length = rows.length * n := by
  rw [List.length_flatten, List.map_congr_left even, List.map_const', List.sum_replicate_nat]

namespace Grid

variable {α : Type} {m n : Nat}

@[simp] theorem length_toList (g : Grid α m n) : g.toList.length = m * n :=
  g.cells.size_toArray

theorem offset_inside (i : Fin m) (j : Fin n) : i * n + j < m * n :=
  (offset i j).isLt

theorem getElem?_toList (g : Grid α m n) (i : Fin m) (j : Fin n) :
    g.toList[i * n + j]? = some (g.get i j) := by
  have inside := offset_inside i j
  rw [List.getElem?_eq_getElem (by simpa using inside)]
  rfl

theorem eq_toList {g : Grid α m n} {data : List α} (full : data.length = m * n)
    (cells : ∀ (i : Fin m) (j : Fin n), data[i * n + j]? = some (g.get i j)) :
    data = g.toList := by
  apply List.ext_getElem?
  intro k
  by_cases inside : k < m * n
  · have place := congrArg Fin.val (offset_rowAt_colAt ⟨k, inside⟩)
    have shown := cells (rowAt ⟨k, inside⟩) (colAt ⟨k, inside⟩)
    rw [← getElem?_toList] at shown
    rwa [show rowAt ⟨k, inside⟩ * n + colAt ⟨k, inside⟩ = k from place] at shown
  · rw [List.getElem?_eq_none (by omega), List.getElem?_eq_none (by simp; omega)]

theorem offset_inj {i r : Fin m} {j c : Fin n} :
    i.val * n + j = r.val * n + c ↔ i = r ∧ j = c := by
  constructor
  · intro same
    have equal : offset i j = offset r c := Fin.ext same
    exact ⟨by rw [← rowAt_offset i j, equal, rowAt_offset],
      by rw [← colAt_offset i j, equal, colAt_offset]⟩
  · rintro ⟨rfl, rfl⟩
    rfl

theorem toList_set (g : Grid α m n) (i : Fin m) (j : Fin n) (x : α) :
    (g.set i j x).toList = g.toList.set (i * n + j) x := by
  symm
  apply eq_toList (by simp)
  intro r c
  have inside := offset_inside i j
  rw [List.getElem?_set, getElem?_toList, get_set]
  simp only [offset_inj, length_toList, inside]
  by_cases here : i = r ∧ j = c
  · simp [here]
  · rw [if_neg here, if_neg fun back => here ⟨back.1.symm, back.2.symm⟩]

theorem flatten_toRows (g : Grid α m n) : g.toRows.flatten = g.toList := by
  have even : ∀ row ∈ g.toRows, row.length = n := by
    simp [toRows, row]
  apply eq_toList
  · rw [length_flatten even]
    simp [toRows]
  · intro i j
    rw [getElem?_flatten even _ j.isLt]
    simp [toRows, row]

theorem row_inside (i : Fin m) : i.val * n + n ≤ m * n := by
  rw [← Nat.succ_mul]
  exact Nat.mul_le_mul_right n i.isLt

/-- Whether an offset lies in a row depends on the row only. -/
theorem mem_row_iff (i r : Fin m) (c : Fin n) :
    i.val * n ≤ r.val * n + c ∧ r.val * n + c < i.val * n + n ↔ r = i := by
  constructor
  · rintro ⟨low, high⟩
    have column : r.val * n + c - i.val * n < n := by omega
    have same : i.val * n + (⟨_, column⟩ : Fin n).val = r.val * n + c := by
      simp only
      omega
    exact (offset_inj.mp same).1.symm
  · rintro rfl
    omega

theorem toList_swapRows {i j : Fin m} (apart : i ≠ j) (g : Grid α m n) :
    (g.swapRows i j).toList =
      splice (splice g.toList (i * n) (slice g.toList (j * n) n)) (j * n)
        (slice g.toList (i * n) n) := by
  have upper : (slice g.toList (i * n) n).length = n := length_slice (by simpa using row_inside i)
  have lower : (slice g.toList (j * n) n).length = n := length_slice (by simpa using row_inside j)
  have first : i.val * n + (slice g.toList (j * n) n).length ≤ g.toList.length := by
    rw [lower, length_toList]
    exact row_inside i
  have second : j.val * n + (slice g.toList (i * n) n).length ≤
      (splice g.toList (i * n) (slice g.toList (j * n) n)).length := by
    rw [upper, length_splice first, length_toList]
    exact row_inside j
  symm
  apply eq_toList
  · rw [length_splice second, length_splice first, length_toList]
  · intro r c
    rw [getElem?_splice second, getElem?_splice first, upper, lower, get_swapRows,
      if_congr (mem_row_iff j r c) rfl rfl, if_congr (mem_row_iff i r c) rfl rfl]
    by_cases low : r = j
    · subst low
      rw [if_pos rfl, Nat.add_sub_cancel_left, getElem?_slice _ _ c.isLt, getElem?_toList,
        if_neg apart.symm, if_pos rfl]
    · rw [if_neg low]
      by_cases high : r = i
      · subst high
        rw [if_pos rfl, Nat.add_sub_cancel_left, getElem?_slice _ _ c.isLt, getElem?_toList,
          if_pos rfl]
      · rw [if_neg high, getElem?_toList, if_neg high, if_neg low]

/-- Gives the cells at the listed positions new numbers, one after the other. A number may depend
on what the grid holds by then. -/
def overwrite (value : Grid α m n → Fin m × Fin n → α) (positions : List (Fin m × Fin n))
    (g : Grid α m n) : Grid α m n :=
  positions.foldl (fun g p => g.set p.1 p.2 (value g p)) g

/-- If no new number depends on another listed cell, each is computed from the grid at the
start. -/
theorem get_overwrite {value : Grid α m n → Fin m × Fin n → α} {positions : List (Fin m × Fin n)}
    (nodup : positions.Nodup)
    (steady : ∀ p ∈ positions, ∀ q ∈ positions, q ≠ p → ∀ g x,
      value (g.set p.1 p.2 x) q = value g q)
    (g : Grid α m n) (r : Fin m) (c : Fin n) :
    (g.overwrite value positions).get r c =
      if (r, c) ∈ positions then value g (r, c) else g.get r c := by
  induction positions generalizing g with
  | nil => rfl
  | cons p rest ih =>
    obtain ⟨fresh, later⟩ := List.nodup_cons.mp nodup
    have tail := ih later
      (fun p mine q yours =>
        steady p (List.mem_cons_of_mem _ mine) q (List.mem_cons_of_mem _ yours))
      (g.set p.1 p.2 (value g p))
    refine tail.trans ?_
    by_cases inRest : (r, c) ∈ rest
    · have different : (r, c) ≠ p := fun same => fresh (same ▸ inRest)
      rw [if_pos inRest, if_pos (List.mem_cons_of_mem _ inRest)]
      exact steady p List.mem_cons_self (r, c) (List.mem_cons_of_mem _ inRest) different g _
    · rw [if_neg inRest, get_set]
      by_cases here : r = p.1 ∧ c = p.2
      · rw [if_pos here, if_pos (List.mem_cons.mpr (.inl (Prod.ext here.1 here.2)))]
        exact congrArg (value g) (Prod.ext here.1.symm here.2.symm)
      · rw [if_neg here, if_neg]
        rw [List.mem_cons, not_or]
        exact ⟨fun same => here (Prod.mk.inj same), inRest⟩

end Grid

end MatrixCalculator
