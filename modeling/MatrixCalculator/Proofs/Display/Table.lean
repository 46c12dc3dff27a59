import MatrixCalculator.Proofs.Display.Number
import MatrixCalculator.Proofs.Grid.Layout
import MatrixCalculator.Proofs.Grid.Sweep
import Mathlib.Data.List.Induction
import Mathlib.Data.List.Infix

/-! Tables. All lines of a table have the same length, the cells of a column end at the same place
with three blanks or more in front of each, and the words of a line are the cells of its row. -/
namespace MatrixCalculator.Display

section Words

variable {α : Type} {breaks cs front back : List Char} {c : Char}

/-- The words of a text: what is left of it between breaks. -/
def words (breaks cs : List Char) : List (List Char) :=
  (cs.splitOnP fun c => decide (c ∈ breaks)).filter (· ≠ [])

structure Solid (breaks cs : List Char) : Prop where
  some : cs ≠ []
  clear : ∀ c ∈ cs, c ∉ breaks

theorem words_nil : words breaks [] = [] :=
  rfl

theorem Solid.words_eq (solid : Solid breaks cs) : words breaks cs = [cs] := by
  have one := List.splitOnP_eq_singleton fun c member => decide_eq_false (solid.clear c member)
  rw [words, one]
  exact List.filter_cons_of_pos (decide_eq_true solid.some)

theorem Solid.mono {more : List Char} (fewer : breaks ⊆ more) (solid : Solid more cs) :
    Solid breaks cs :=
  ⟨solid.some, fun c member inside => solid.clear c member (fewer inside)⟩

theorem words_append_break (separates : c ∈ breaks) (front back : List Char) :
    words breaks (front ++ c :: back) = words breaks front ++ words breaks back := by
  have split := List.splitOnP_append_cons (p := fun c => decide (c ∈ breaks)) front back
    (decide_eq_true separates)
  rw [words, split, List.filter_append]
  rfl

theorem words_cons_break (separates : c ∈ breaks) (cs : List Char) :
    words breaks (c :: cs) = words breaks cs :=
  words_append_break separates [] cs

/-- A piece that begins with a break has its own words. -/
theorem words_append (begins : ∀ c, back.head? = some c → c ∈ breaks) (front : List Char) :
    words breaks (front ++ back) = words breaks front ++ words breaks back := by
  cases back with
  | nil => rw [words_nil, List.append_nil, List.append_nil]
  | cons c back =>
    have separates := begins c rfl
    rw [words_append_break separates, words_cons_break separates]

theorem words_replicate_append (separates : c ∈ breaks) (count : Nat) (cs : List Char) :
    words breaks (List.replicate count c ++ cs) = words breaks cs := by
  induction count with
  | zero => rfl
  | succ count ih => rw [List.replicate_succ, List.cons_append, words_cons_break separates, ih]

theorem words_flatMap {f : α → List Char} (begins : ∀ a, ∃ c cs, f a = c :: cs ∧ c ∈ breaks)
    (l : List α) : words breaks (l.flatMap f) = l.flatMap fun a => words breaks (f a) := by
  -- From behind: what is added at the end begins with a break, whatever stands in front of it.
  induction l using List.reverseRecOn with
  | nil => exact words_nil
  | append_singleton l a ih =>
    obtain ⟨c, cs, shape, separates⟩ := begins a
    rw [List.flatMap_append, List.flatMap_append, List.flatMap_singleton, List.flatMap_singleton,
      shape, words_append_break separates, words_cons_break separates, ih]

theorem words_intercalate (separates : c ∈ breaks) (lines : List (List Char)) :
    words breaks ([c].intercalate lines) = lines.flatMap (words breaks) := by
  induction lines with
  | nil => exact words_nil
  | cons line lines ih =>
    cases lines with
    | nil => rw [List.intercalate_singleton, List.flatMap_singleton]
    | cons next lines =>
      rw [List.intercalate_cons_cons, List.append_assoc, List.singleton_append,
        words_append_break separates, ih]
      rfl

end Words

section Lines

variable {m n : Nat} {cells : Grid (List Char) m n} {breaks : List Char}

theorem length_le_columnWidth (cells : Grid (List Char) m n) (i : Fin m) (j : Fin n) :
    (cells.get i j).length ≤ columnWidth cells j := by
  rw [columnWidth, List.foldl_max]
  refine (List.le_max?_getD_of_mem ?_).trans (le_max_right _ _)
  exact List.mem_map_of_mem (List.mem_map_of_mem (List.mem_finRange i))

theorem length_justified {width : Nat} {cell : List Char} (fits : cell.length ≤ width) :
    (justified width cell).length = columnGap + width := by
  rw [justified, List.length_append, List.length_replicate]
  omega

theorem words_justified {cell : List Char} (separates : ' ' ∈ breaks) (solid : Solid breaks cell)
    (width : Nat) : words breaks (justified width cell) = [cell] := by
  rw [justified, words_replicate_append separates, solid.words_eq]

def lineTo (cells : Grid (List Char) m n) (i : Fin m) (count : Nat) : List Char :=
  ((List.finRange n).take count).flatMap fun j =>
    justified (columnWidth cells j) (cells.get i j)

def columnEnd (cells : Grid (List Char) m n) (count : Nat) : Nat :=
  (((List.finRange n).take count).map fun j => columnGap + columnWidth cells j).sum

theorem lineTo_all (cells : Grid (List Char) m n) (i : Fin m) :
    lineTo cells i n = line cells i := by
  rw [lineTo, List.take_of_length_le (by simp), line]

theorem length_lineTo (cells : Grid (List Char) m n) (i : Fin m) (count : Nat) :
    (lineTo cells i count).length = columnEnd cells count := by
  rw [lineTo, List.length_flatMap, columnEnd]
  exact congrArg List.sum (List.map_congr_left fun j _ =>
    length_justified (length_le_columnWidth cells i j))

theorem words_lineTo (separates : ' ' ∈ breaks) (solid : ∀ i j, Solid breaks (cells.get i j))
    (i : Fin m) (count : Nat) : words breaks (lineTo cells i count) = (cells.row i).take count := by
  rw [lineTo, words_flatMap, Grid.row, ← List.map_take, List.map_eq_flatMap]
  · exact List.flatMap_congr fun j _ => words_justified separates (solid i j) _
  · intro j
    have room := length_le_columnWidth cells i j
    obtain ⟨blanks, count⟩ : ∃ blanks,
        columnGap + columnWidth cells j - (cells.get i j).length = blanks + 1 :=
      ⟨_, (Nat.succ_pred (by rw [columnGap]; omega)).symm⟩
    exact ⟨' ', _, by rw [justified, count, List.replicate_succ, List.cons_append], separates⟩

theorem words_line (separates : ' ' ∈ breaks) (solid : ∀ i j, Solid breaks (cells.get i j))
    (i : Fin m) : words breaks (line cells i) = cells.row i := by
  rw [← lineTo_all, words_lineTo separates solid]
  exact List.take_of_length_le (by simp [Grid.row])

theorem lineTo_succ (cells : Grid (List Char) m n) (i : Fin m) (j : Fin n) :
    lineTo cells i (j + 1) =
      lineTo cells i j ++ justified (columnWidth cells j) (cells.get i j) := by
  rw [lineTo, Grid.take_finRange_succ, List.flatMap_append, List.flatMap_singleton, lineTo]

theorem lineTo_isPrefix (cells : Grid (List Char) m n) (i : Fin m) (count : Nat) :
    lineTo cells i count <+: line cells i :=
  (List.take_prefix count _).flatMap _

theorem mem_line {i : Fin m} {c : Char} (member : c ∈ line cells i) :
    c = ' ' ∨ ∃ j, c ∈ cells.get i j := by
  obtain ⟨j, -, inside⟩ := List.mem_flatMap.mp member
  rcases List.mem_append.mp inside with blank | cell
  · exact .inl (List.eq_of_mem_replicate blank)
  · exact .inr ⟨j, cell⟩

end Lines

section Alignment

variable {m n : Nat}

/-- A cell ends at a place in a line, with three blanks or more between it and the cells before. -/
def EndsAt (place : Nat) (line : List Char) (before : List (List Char)) (cell : List Char) : Prop :=
  ∃ front blanks back, line = front ++ (List.replicate blanks ' ' ++ cell) ++ back ∧
    words [' '] front = before ∧ 3 ≤ blanks ∧ front.length + blanks + cell.length = place

structure Aligned (cells : Grid (List Char) m n) (lines : Fin m → List Char) : Prop where
  unbroken : ∀ i, '\n' ∉ lines i
  even : ∀ i k, (lines i).length = (lines k).length
  ends : ∃ place : Fin n → Nat, ∀ i j,
    EndsAt (place j) (lines i) ((cells.row i).take j) (cells.get i j)
  cells : ∀ i, words [' '] (lines i) = cells.row i

variable {cells : Grid (List Char) m n}

theorem endsAt_line (solid : ∀ i j, Solid [' '] (cells.get i j)) (i : Fin m) (j : Fin n) :
    EndsAt (columnEnd cells (j + 1)) (line cells i) ((cells.row i).take j) (cells.get i j) := by
  obtain ⟨back, shape⟩ := lineTo_isPrefix cells i (j + 1)
  have fits := length_le_columnWidth cells i j
  have length := length_lineTo cells i (j + 1)
  rw [lineTo_succ, justified] at shape length
  refine ⟨_, _, back, shape.symm, words_lineTo List.mem_cons_self solid i j, ?_, ?_⟩
  · rw [columnGap]
    omega
  · rwa [List.length_append, List.length_append, List.length_replicate, ← Nat.add_assoc] at length

theorem aligned_line (solid : ∀ i j, Solid [' ', '\n'] (cells.get i j)) :
    Aligned cells (line cells) := by
  have apart (i : Fin m) (j : Fin n) : Solid [' '] (cells.get i j) := (solid i j).mono (by simp)
  refine ⟨fun i broken => ?_, fun i k => ?_, ⟨_, endsAt_line apart⟩,
    words_line List.mem_cons_self apart⟩
  · rcases mem_line broken with blank | ⟨j, inside⟩
    · exact absurd blank (by decide)
    · exact (solid i j).clear _ inside (List.mem_cons_of_mem _ List.mem_cons_self)
  · rw [← lineTo_all, ← lineTo_all, length_lineTo, length_lineTo]

theorem words_table {breaks : List Char} (blank : ' ' ∈ breaks) (newline : '\n' ∈ breaks)
    (solid : ∀ i j, Solid breaks (cells.get i j)) :
    words breaks (table cells) = cells.toRows.flatten := by
  have lines : (List.finRange m).flatMap (fun i => words breaks (line cells i)) =
      cells.toRows.flatten := by
    rw [Grid.toRows, ← List.flatMap_def]
    exact List.flatMap_congr fun i _ => words_line blank solid i
  rw [table, List.cons_append, List.cons_append, words_cons_break newline,
    words_cons_break newline, words_append_break newline, words_nil, List.append_nil,
    words_intercalate newline, List.flatMap_map, lines]

end Alignment

section Matrices

/-- The text of a number is one word, also if the number is not finite. -/
theorem solid_scalar (places : Nat) (x : Float) : Solid [' ', '\n'] (scalar places x) := by
  cases known : Double.exact x with
  | none =>
    have texts : ∀ text ∈ bareTexts, text ≠ [] ∧ ∀ c ∈ text, c ∉ [' ', '\n'] := by simp [bareTexts]
    obtain ⟨some, clear⟩ := texts _ (scalar_of_unknown known places)
    exact ⟨some, clear⟩
  | some value =>
    obtain ⟨d, shape⟩ := exists_plain known places
    rw [← shape]
    refine ⟨d.text_ne_nil, fun c member => ?_⟩
    rcases Decimal.Plain.mem_text member with rfl | rfl | digit
    · decide
    · decide
    · intro gap
      rcases List.mem_pair.mp gap with rfl | rfl <;> exact absurd digit (by decide)

theorem solid_get_map {rows cols : Nat} (g : Grid Float rows cols) (places : Nat) (i : Fin rows)
    (j : Fin cols) : Solid [' ', '\n'] ((g.map (scalar places)).get i j) := by
  rw [Grid.get_map]
  exact solid_scalar places _

variable {m : DenseMatrix Float}

theorem matrix_eq_table (rows : 0 < m.rows) (cols : 0 < m.cols)
    (several : ¬(m.rows = 1 ∧ m.cols = 1)) (places : Nat) :
    matrix places m = table (m.grid.map (scalar places)) := by
  have filled : m.isEmpty = false := by
    simp [DenseMatrix.isEmpty, rows.ne', cols.ne']
  have length : m.toList.length = m.rows * m.cols := m.grid.length_toList
  rw [matrix, filled, if_neg (by decide)]
  split
  · next x one =>
    rw [one, List.length_singleton, eq_comm, mul_eq_one] at length
    exact absurd length several
  · rfl

/-- A matrix of several cells is shown as a table with one line for each row. -/
theorem matrix_table (rows : 0 < m.rows) (cols : 0 < m.cols)
    (several : ¬(m.rows = 1 ∧ m.cols = 1)) (places : Nat) :
    ∃ lines : Fin m.rows → List Char,
      matrix places m =
        '\n' :: '\n' :: ['\n'].intercalate ((List.finRange m.rows).map lines) ++ ['\n'] ∧
      Aligned (m.grid.map (scalar places)) lines :=
  ⟨line _, matrix_eq_table rows cols several places, aligned_line (solid_get_map m.grid places)⟩

theorem square_table : let m : DenseMatrix Float := ⟨2, 2, ⟨#v[1, -20, 300, 0.5]⟩⟩
    0 < m.rows ∧ 0 < m.cols ∧ ¬(m.rows = 1 ∧ m.cols = 1) ∧
      ∃ lines : Fin m.rows → List Char,
        matrix 4 m =
          '\n' :: '\n' :: ['\n'].intercalate ((List.finRange m.rows).map lines) ++ ['\n'] ∧
        Aligned (m.grid.map (scalar 4)) lines := by
  intro m
  have rows : 0 < m.rows := Nat.succ_pos 1
  have several : ¬(m.rows = 1 ∧ m.cols = 1) := by decide
  exact ⟨rows, rows, several, matrix_table rows rows several 4⟩

example : matrix 4 (DenseMatrix.ofGrid (⟨#v[1, -20, 300, 0.5]⟩ : Grid Float 2 2)) =
    "\n\n     1      -20\n   300   0.5000\n".toList := by
  decide +kernel

end Matrices
end MatrixCalculator.Display
