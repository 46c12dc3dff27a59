import MatrixCalculator.Proofs.Flat.Transposition

/-! Matrices as lists of rows. Rows of one length make a matrix that shows them again, and of other
rows the first uneven one is reported. A matrix is made anew from its rows unless it has columns but
no row: an empty list of rows does not tell how many columns there were. -/
namespace MatrixCalculator

variable {α : Type}

/-- Whether some row is not as long as the first one. -/
def Ragged (rows : List (List α)) : Prop :=
  ∃ first row, rows.head? = some first ∧ row ∈ rows ∧ row.length ≠ first.length

/-- Row `i` has the given length, and is the first one that is not as long as the first row. -/
structure FirstUneven (rows : List (List α)) (i length expected : Nat) : Prop where
  expects : rows.head?.map List.length = some expected
  here : rows[i]?.map List.length = some length
  differs : length ≠ expected
  before : ∀ j < i, rows[j]?.map List.length = some expected

theorem not_ragged_nil : ¬Ragged ([] : List (List α)) := by
  rintro ⟨_, _, found, _⟩
  cases found

theorem ragged_cons_iff (first : List α) (rest : List (List α)) :
    Ragged (first :: rest) ↔ ∃ row ∈ first :: rest, row.length ≠ first.length := by
  simp [Ragged]

namespace FirstUneven

variable {rows : List (List α)} {i j length other expected wanted : Nat}

theorem ragged (uneven : FirstUneven rows i length expected) : Ragged rows := by
  obtain ⟨first, found, rfl⟩ := Option.map_eq_some_iff.mp uneven.expects
  obtain ⟨row, here, rfl⟩ := Option.map_eq_some_iff.mp uneven.here
  exact ⟨first, row, found, List.mem_of_getElem? here, uneven.differs⟩

theorem unique (first : FirstUneven rows i length expected)
    (second : FirstUneven rows j other wanted) : i = j ∧ length = other ∧ expected = wanted := by
  obtain rfl : expected = wanted := Option.some.inj (first.expects.symm.trans second.expects)
  rcases Nat.lt_trichotomy i j with less | rfl | more
  · exact absurd (Option.some.inj (first.here.symm.trans (second.before i less))) first.differs
  · exact ⟨rfl, Option.some.inj (first.here.symm.trans second.here), rfl⟩
  · exact absurd (Option.some.inj (second.here.symm.trans (first.before j more))) second.differs

end FirstUneven

namespace Grid

variable {m n : Nat}

theorem toList_injective : Function.Injective (toList : Grid α m n → List α) := by
  intro g h same
  refine Grid.ext fun i j => Option.some.inj ?_
  rw [← g.getElem?_toList i j, ← h.getElem?_toList i j, same]

theorem length_toRows (g : Grid α m n) : g.toRows.length = m := by
  rw [toRows, List.length_map, List.length_finRange]

theorem length_of_mem_toRows {g : Grid α m n} {row : List α} (member : row ∈ g.toRows) :
    row.length = n := by
  obtain ⟨i, -, rfl⟩ := List.mem_map.mp member
  rw [Grid.row, List.length_map, List.length_finRange]

/-- The rows of a grid are the only ones of their number and length that hold its cells. -/
theorem toRows_eq {g : Grid α m n} {rows : List (List α)} (count : rows.length = m)
    (even : ∀ row ∈ rows, row.length = n) (flat : g.toList = rows.flatten) : g.toRows = rows := by
  have shown : g.toRows.map List.length = List.replicate m n := by
    rw [List.map_congr_left fun row member => length_of_mem_toRows member, List.map_const',
      length_toRows]
  have given : rows.map List.length = List.replicate m n := by
    rw [List.map_congr_left even, List.map_const', count]
  rw [List.eq_iff_flatten_eq, flatten_toRows, shown, given]
  exact ⟨flat, rfl⟩

theorem row_eq_slice (g : Grid α m n) (i : Fin m) : g.row i = slice g.toList (i * n) n := by
  have full : (slice g.toList (i * n) n).length = n := length_slice (by simpa using row_inside i)
  apply List.ext_getElem?
  intro j
  rcases Nat.lt_or_ge j n with inside | outside
  · rw [getElem?_slice _ _ inside, getElem?_toList g i ⟨j, inside⟩]
    simp [row, inside]
  · rw [List.getElem?_eq_none (full.le.trans outside),
      List.getElem?_eq_none (by simpa [row] using outside)]

end Grid

namespace DenseMatrix

variable {rows : List (List α)}

theorem ofRows_of_not_ragged (even : ¬Ragged rows) :
    ∃ m : DenseMatrix α, ofRows rows = .ok m ∧ m.toRows = rows := by
  cases rows with
  | nil => exact ⟨empty, rfl, rfl⟩
  | cons first rest =>
    have width : ∀ row ∈ first :: rest, row.length = first.length := by
      intro row member
      by_contra differs
      exact even ((ragged_cons_iff first rest).mpr ⟨row, member, differs⟩)
    have none : (first :: rest).findIdx? (fun row => row.length != first.length) = none := by
      rw [List.findIdx?_eq_none_iff]
      simpa using width
    have fits := length_flatten width
    refine ⟨⟨_, _, ⟨⟨(first :: rest).flatten.toArray, fits⟩⟩⟩, ?_, Grid.toRows_eq rfl width rfl⟩
    simp only [ofRows, none]
    exact dif_pos fits

theorem ofRows_of_ragged (ragged : Ragged rows) :
    ∃ i length expected, FirstUneven rows i length expected ∧
      ofRows rows = .error (.raggedRow (i + 1) length expected) := by
  cases rows with
  | nil => exact absurd ragged not_ragged_nil
  | cons first rest =>
    obtain ⟨row, member, differs⟩ := (ragged_cons_iff first rest).mp ragged
    cases search : (first :: rest).findIdx? fun row => row.length != first.length with
    | none =>
      have same := List.findIdx?_eq_none_iff.mp search row member
      exact absurd (by simpa using same) differs
    | some i =>
      obtain ⟨inside, uneven, early⟩ := List.findIdx?_eq_some_iff_getElem.mp search
      refine ⟨i, _, first.length, ⟨rfl, ?_, by simpa using uneven, fun j less => ?_⟩, ?_⟩
      · rw [List.getElem?_eq_getElem inside, Option.map_some]
      · rw [List.getElem?_eq_getElem (less.trans inside), Option.map_some]
        simpa using early j less
      · simp only [ofRows, search, List.getElem?_eq_getElem inside, Option.getD_some]

theorem ofRows_error_iff {fault : Fault} :
    ofRows rows = .error fault ↔ ∃ i length expected,
      FirstUneven rows i length expected ∧ fault = .raggedRow (i + 1) length expected := by
  constructor
  · intro refused
    by_cases ragged : Ragged rows
    · obtain ⟨i, length, expected, uneven, reported⟩ := ofRows_of_ragged ragged
      exact ⟨i, length, expected, uneven, Except.error.inj (refused.symm.trans reported)⟩
    · obtain ⟨m, made, -⟩ := ofRows_of_not_ragged ragged
      cases made.symm.trans refused
  · rintro ⟨i, length, expected, uneven, rfl⟩
    obtain ⟨j, other, wanted, first, reported⟩ := ofRows_of_ragged uneven.ragged
    obtain ⟨rfl, rfl, rfl⟩ := uneven.unique first
    exact reported

theorem ofRows_refused_iff : (∃ fault, ofRows rows = .error fault) ↔ Ragged rows := by
  constructor
  · rintro ⟨fault, refused⟩
    obtain ⟨_, _, _, uneven, -⟩ := ofRows_error_iff.mp refused
    exact uneven.ragged
  · intro ragged
    obtain ⟨_, _, _, -, reported⟩ := ofRows_of_ragged ragged
    exact ⟨_, reported⟩

theorem not_ragged_toRows (m : DenseMatrix α) : ¬Ragged m.toRows := by
  rintro ⟨first, row, found, member, differs⟩
  rw [Grid.length_of_mem_toRows member,
    Grid.length_of_mem_toRows (List.mem_of_head? found)] at differs
  exact differs rfl

/-- A matrix with a row is known from its rows. -/
theorem eq_of_toRows {m p : DenseMatrix α} (positive : 0 < m.rows) (same : p.toRows = m.toRows) :
    p = m := by
  obtain ⟨rows, cols, g⟩ := m
  obtain ⟨others, width, h⟩ := p
  obtain rfl : others = rows := by
    rw [← h.length_toRows, ← g.length_toRows]
    exact congrArg List.length same
  have here : g.row ⟨0, positive⟩ ∈ g.toRows := List.mem_map_of_mem (List.mem_finRange _)
  have there : g.row ⟨0, positive⟩ ∈ h.toRows := by
    rw [show h.toRows = g.toRows from same]
    exact here
  obtain rfl : width = cols :=
    (Grid.length_of_mem_toRows there).symm.trans (Grid.length_of_mem_toRows here)
  refine congrArg ofGrid (Grid.toList_injective ?_)
  rw [← h.flatten_toRows, ← g.flatten_toRows]
  exact congrArg List.flatten same

theorem ofRows_toRows_of_pos {m : DenseMatrix α} (positive : 0 < m.rows) :
    ofRows m.toRows = .ok m := by
  obtain ⟨p, made, shown⟩ := ofRows_of_not_ragged m.not_ragged_toRows
  rw [made, eq_of_toRows positive shown]

theorem ofRows_toRows_of_zero {m : DenseMatrix α} (none : m.rows = 0) :
    ofRows m.toRows = .ok empty := by
  have count : m.toRows.length = 0 := m.grid.length_toRows.trans none
  rw [List.length_eq_zero_iff.mp count]
  rfl

theorem ofRows_toRows_iff (m : DenseMatrix α) :
    ofRows m.toRows = .ok m ↔ 0 < m.rows ∨ m.cols = 0 := by
  rcases Nat.eq_zero_or_pos m.rows with none | positive
  · rw [ofRows_toRows_of_zero none]
    constructor
    · intro same
      rw [← Except.ok.inj same]
      exact .inr rfl
    · intro shape
      obtain ⟨rows, cols, g⟩ := m
      obtain rfl : rows = 0 := none
      obtain rfl : cols = 0 := shape.resolve_left (Nat.lt_irrefl 0)
      exact congrArg (fun g => Except.ok (ofGrid g)) (Grid.ext fun i => i.elim0)
  · exact iff_of_true (ofRows_toRows_of_pos positive) (.inl positive)

end DenseMatrix

namespace Flat

def toRows (s : Storage α) : List (List α) :=
  (List.range s.rows).map fun r => slice s.data (r * s.cols) s.cols

theorem toRows_of (m : DenseMatrix α) : toRows (.of m) = m.toRows := by
  obtain ⟨m, n, g⟩ := m
  show (List.range m).map (fun r => slice g.toList (r * n) n) = (List.finRange m).map g.row
  rw [← List.map_coe_finRange_eq_range, List.map_map]
  exact List.map_congr_left fun i _ => (g.row_eq_slice i).symm

theorem stored_eq_error_iff {outcome : Except Fault (DenseMatrix α)} {failure : Failure} :
    stored outcome = .error failure ↔
      ∃ fault, outcome = .error fault ∧ failure = .ofFault fault := by
  cases outcome with
  | error fault => simp [stored, carried, Except.map, Except.mapError, eq_comm]
  | ok p => simp [stored, carried, Except.map, Except.mapError]

theorem of_injective : Function.Injective (Storage.of : DenseMatrix α → Storage α) := by
  rintro ⟨m, n, g⟩ ⟨m', n', h⟩ same
  obtain ⟨rfl, rfl, cells⟩ := Storage.mk.inj same
  exact congrArg DenseMatrix.ofGrid (Grid.toList_injective cells)

/-- How matrices and lists of rows correspond, for matrices and for the storages that hold their
cells in one list. -/
structure Nesting (α : Type) [Zero α] : Prop where
  refused : ∀ rows : List (List α),
    (∃ fault, DenseMatrix.ofRows rows = .error fault) ↔ Ragged rows
  reported : ∀ (rows : List (List α)) (fault : Fault), DenseMatrix.ofRows rows = .error fault ↔
    ∃ i length expected, FirstUneven rows i length expected ∧
      fault = .raggedRow (i + 1) length expected
  shown : ∀ rows : List (List α), ¬Ragged rows →
    ∃ m, DenseMatrix.ofRows rows = .ok m ∧ m.toRows = rows
  rebuilt : ∀ m : DenseMatrix α,
    DenseMatrix.ofRows m.toRows = .ok m ↔ 0 < m.rows ∨ m.cols = 0
  stored_reported : ∀ (rows : List (List α)) (failure : Failure), fromRows rows = .error failure ↔
    ∃ i length expected, FirstUneven rows i length expected ∧
      failure = .ofFault (.raggedRow (i + 1) length expected)
  stored_shown : ∀ rows : List (List α), ¬Ragged rows →
    ∃ s, fromRows rows = .ok s ∧ s.Full ∧ toRows s = rows
  stored_rebuilt : ∀ s : Storage α, s.Full →
    (fromRows (toRows s) = .ok s ↔ 0 < s.rows ∨ s.cols = 0)

/-- Rows are refused exactly if they are ragged, with the first uneven one, and are shown again
otherwise. A matrix is made anew from its rows exactly if it has a row or no column. -/
theorem nesting [Zero α] : Nesting α where
  refused _ := DenseMatrix.ofRows_refused_iff
  reported _ _ := DenseMatrix.ofRows_error_iff
  shown _ := DenseMatrix.ofRows_of_not_ragged
  rebuilt := DenseMatrix.ofRows_toRows_iff
  stored_reported rows failure := by
    rw [fromRows_eq, stored_eq_error_iff]
    constructor
    · rintro ⟨fault, refused, rfl⟩
      obtain ⟨i, length, expected, uneven, rfl⟩ := DenseMatrix.ofRows_error_iff.mp refused
      exact ⟨i, length, expected, uneven, rfl⟩
    · rintro ⟨i, length, expected, uneven, rfl⟩
      exact ⟨_, DenseMatrix.ofRows_error_iff.mpr ⟨i, length, expected, uneven, rfl⟩, rfl⟩
  stored_shown rows even := by
    obtain ⟨m, made, shown⟩ := DenseMatrix.ofRows_of_not_ragged even
    refine ⟨.of m, ?_, Storage.full_of m, (toRows_of m).trans shown⟩
    rw [fromRows_eq, made]
    rfl
  stored_rebuilt s full := by
    obtain ⟨m, rfl⟩ := full.exists_of
    have made : fromRows (toRows (.of m)) = .ok (.of m) ↔
        DenseMatrix.ofRows m.toRows = .ok m := by
      rw [toRows_of, fromRows_eq, stored_eq_ok_iff]
      constructor
      · rintro ⟨p, made, same⟩
        rw [made, of_injective same]
      · exact fun made => ⟨m, made, rfl⟩
    exact made.trans (DenseMatrix.ofRows_toRows_iff m)

/-- Two rows without a cell are a matrix, and of three uneven rows the second is reported. Three
columns without a row are lost. -/
theorem nesting_degenerate :
    ¬Ragged ([[], []] : List (List Float)) ∧ (Storage.mk 0 3 [] : Storage Float).Full ∧
      (∃ s, fromRows ([[], []] : List (List Float)) = .ok s ∧ s.Full ∧ toRows s = [[], []]) ∧
      fromRows ([[1, 2], [3], [4, 5, 6]] : List (List Float)) =
        .error (.ofFault (.raggedRow 2 1 2)) ∧
      fromRows (toRows (Storage.mk 0 3 [] : Storage Float)) ≠ .ok ⟨0, 3, []⟩ := by
  have even : ¬Ragged ([[], []] : List (List Float)) := by simp [Ragged]
  have full : (Storage.mk 0 3 [] : Storage Float).Full := rfl
  have uneven : FirstUneven ([[1, 2], [3], [4, 5, 6]] : List (List Float)) 1 1 2 :=
    ⟨rfl, rfl, by decide, fun j less => by rw [Nat.lt_one_iff.mp less]; rfl⟩
  refine ⟨even, full, nesting.stored_shown _ even,
    (nesting.stored_reported _ _).mpr ⟨1, 1, 2, uneven, rfl⟩, ?_⟩
  rw [ne_eq, nesting.stored_rebuilt _ full]
  decide

end Flat

end MatrixCalculator
