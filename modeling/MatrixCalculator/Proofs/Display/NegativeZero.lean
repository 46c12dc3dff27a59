import MatrixCalculator.LinearSystem.Solution
import MatrixCalculator.Proofs.Display.Table

/-! Negative zeros on display. A number that counts as zero is shown without a sign. A negative
number that does not count as zero is shown as a negative zero exactly if it is no larger than
half a unit of the last place, on its own, in a table and in the description of a solution. -/
namespace MatrixCalculator.Display

open LinearSystem (Line Term)

/-- A minus sign in front of nothing but zeros, with or without a point. -/
def NegativeZero (cs : List Char) : Prop :=
  ∃ zeros, cs = '-' :: zeros ∧ ∀ c ∈ zeros, c = '0' ∨ c = '.'

/-- The number is negative and does not count as zero, but all its places are zeros. -/
def Vanishes (places : Nat) (x : Float) : Prop :=
  ∃ value, Double.exact x = some value ∧ value < 0 ∧ isZero x = false ∧
    |value| * 10 ^ places ≤ 1 / 2

variable {places : Nat} {x : Float} {value : ℚ} {m : DenseMatrix Float}

section Numbers

theorem negativeZero_text_iff (d : Decimal.Plain places) :
    NegativeZero d.text ↔ d.text.head? = some '-' ∧ Decimal.denoted d.text = 0 := by
  rw [d.denoted_eq_zero_iff, d.units_eq_zero_iff]
  constructor
  · rintro ⟨zeros, shape, all⟩
    have sign : d.text.head? = some '-' := by rw [shape]; rfl
    rw [Decimal.Plain.text, if_pos (d.head_text.mp sign)] at shape
    obtain ⟨-, rfl⟩ := List.cons.inj shape
    exact ⟨sign, all⟩
  · rintro ⟨sign, all⟩
    exact ⟨d.size, if_pos (d.head_text.mp sign), all⟩

theorem isIntegral_eq_isZero (known : Double.exact x = some value)
    (small : |value| * 10 ^ places ≤ 1 / 2) : isIntegral x = isZero x := by
  have unit : (1 : ℚ) ≤ 10 ^ places := one_le_pow₀ (by norm_num)
  have half : |value| ≤ 1 / 2 := (le_mul_of_one_le_right (abs_nonneg value) unit).trans small
  exact Double.isIntegral_of_nearest_zero known (Rounding.nearest_eq_zero half)

/-- A whole number is written as zero only without a sign, any other number by its last place. -/
theorem begins_and_denotes_iff (known : Double.exact x = some value) (places : Nat) :
    (scalar places x).head? = some '-' ∧ Decimal.denoted (scalar places x) = 0 ↔
      value < 0 ∧ isZero x = false ∧ |value| * 10 ^ places ≤ 1 / 2 := by
  rw [scalar_of_exact known]
  by_cases integral : isIntegral x = true
  · rw [if_pos integral, Decimal.denoted_integer, Int.cast_eq_zero, ← Decimal.text_plainInteger,
      Decimal.Plain.head_text]
    constructor
    · rintro ⟨negative, zero⟩
      rw [zero] at negative
      cases negative
    · rintro ⟨-, nonzero, small⟩
      rw [isIntegral_eq_isZero known small, nonzero] at integral
      cases integral
  · have nonzero : isZero x = false :=
      Bool.eq_false_iff.mpr fun zero => integral (isIntegral_of_isZero known zero)
    rw [if_neg integral, ← Decimal.text_plainFixed, Decimal.Plain.head_text,
      Decimal.Plain.denoted_eq_zero_iff, Decimal.plainFixed, Decimal.Plain.units_ofUnits,
      Decimal.fixedUnits_eq_zero_iff, ← Rat.num_neg, and_iff_right nonzero]
    exact and_congr_left' decide_eq_true_iff

theorem begins_and_denotes_finite_iff (places : Nat) (x : Float) :
    (Scalar.isFinite x = true ∧ (scalar places x).head? = some '-' ∧
      Decimal.denoted (scalar places x) = 0) ↔ Vanishes places x := by
  have finite : Scalar.isFinite x = (Double.exact x).isSome := rfl
  cases known : Double.exact x with
  | none => simp [finite, Vanishes, known]
  | some value => simp [finite, Vanishes, known, begins_and_denotes_iff known]

theorem negativeZero_scalar_iff (places : Nat) (x : Float) :
    NegativeZero (scalar places x) ↔ Vanishes places x := by
  cases known : Double.exact x with
  | none =>
    have texts : ∀ text ∈ bareTexts, ¬NegativeZero text := by simp [bareTexts, NegativeZero]
    have unknown : ¬Vanishes places x := by simp [Vanishes, known]
    exact iff_of_false (texts _ (scalar_of_unknown known places)) unknown
  | some value =>
    obtain ⟨d, shape⟩ := exists_plain known places
    rw [← shape, negativeZero_text_iff, shape, begins_and_denotes_iff known, Vanishes]
    simp [known]

end Numbers

section Matrices

theorem mem_words_matrix (filled : m.isEmpty = false) (places : Nat) (word : List Char) :
    word ∈ words [' ', '\n'] (matrix places m) ↔
      ∃ i j, scalar places (m.grid.get i j) = word := by
  obtain ⟨rows, cols, g⟩ := m
  by_cases single : rows = 1 ∧ cols = 1
  · obtain ⟨rfl, rfl⟩ := single
    have only : matrix places ⟨1, 1, g⟩ = scalar places (g.get 0 0) := by
      have cells : g.toList = [g.get 0 0] := g.flatten_toRows.symm
      rw [matrix, filled, if_neg (by decide), DenseMatrix.toList]
      dsimp only
      rw [cells]
    rw [only, (solid_scalar places _).words_eq, List.mem_singleton]
    simp [Fin.exists_fin_one, eq_comm]
  · have sizes : 0 < rows ∧ 0 < cols := by
      simpa [DenseMatrix.isEmpty, Nat.pos_iff_ne_zero] using filled
    rw [matrix_eq_table sizes.1 sizes.2 single, words_table (by decide) (by decide)
      (solid_get_map g places)]
    simp [Grid.toRows, Grid.row]

theorem negativeZero_matrix_iff (places : Nat) (m : DenseMatrix Float) :
    (∃ word ∈ words [' ', '\n'] (matrix places m), NegativeZero word) ↔
      ∃ i j, Vanishes places (m.grid.get i j) := by
  simp only [← negativeZero_scalar_iff]
  cases filled : m.isEmpty with
  | false =>
    constructor
    · rintro ⟨word, member, zero⟩
      obtain ⟨i, j, rfl⟩ := (mem_words_matrix filled places word).mp member
      exact ⟨i, j, zero⟩
    · rintro ⟨i, j, zero⟩
      exact ⟨_, (mem_words_matrix filled places _).mpr ⟨i, j, rfl⟩, zero⟩
  | true =>
    have brackets : Solid [' ', '\n'] ['[', ']'] := ⟨by decide, by simp⟩
    have empty : matrix places m = ['[', ']'] := by rw [matrix, filled, if_pos rfl]
    rw [empty, brackets.words_eq]
    refine iff_of_false ?_ ?_
    · simp [NegativeZero]
    · rintro ⟨i, j, -⟩
      have none : m.rows = 0 ∨ m.cols = 0 := by simpa [DenseMatrix.isEmpty] using filled
      exact none.elim (fun rows => (rows ▸ i).elim0) fun cols => (cols ▸ j).elim0

end Matrices

section Solutions

theorem toList_text (l : Line Float) : l.text.toList =
    'x' :: Nat.toDigits 10 (l.unknown + 1) ++ ' ' :: (['='] ++ ' ' ::
      (scalar defaultPlaces l.constant ++ l.terms.flatMap fun t => t.text.toList)) := by
  simp [Line.text, toString, List.flatMap_map]

theorem exists_cons_text (t : Term Float) : ∃ cs, t.text.toList = ' ' :: cs := by
  simp [Term.text, toString]

/-- The constant of a line is its third word. -/
theorem words_text (l : Line Float) : ∃ terms, words [' '] l.text.toList =
    ('x' :: Nat.toDigits 10 (l.unknown + 1)) :: ['='] :: scalar defaultPlaces l.constant ::
      terms := by
  have blank : ' ' ∈ [' '] := List.mem_cons_self
  have unknown : Solid [' '] ('x' :: Nat.toDigits 10 (l.unknown + 1)) := by
    refine ⟨List.cons_ne_nil _ _, List.forall_mem_cons.mpr ⟨by decide, fun c digit gap => ?_⟩⟩
    rw [List.mem_singleton.mp gap] at digit
    exact absurd (Decimal.allDigits_toDigits _ _ digit) (by decide)
  have sign : Solid [' '] ['='] := ⟨by decide, by simp⟩
  have constant : Solid [' '] (scalar defaultPlaces l.constant) :=
    (solid_scalar _ _).mono (by simp)
  have begins : ∀ c, (l.terms.flatMap fun t => t.text.toList).head? = some c → c ∈ [' '] := by
    intro c first
    cases shape : l.terms with
    | nil => rw [shape] at first; cases first
    | cons t terms =>
      obtain ⟨cs, text⟩ := exists_cons_text t
      rw [shape, List.flatMap_cons, text] at first
      exact List.mem_singleton.mpr (Option.some.inj first).symm
  rw [toList_text, words_append_break blank, words_append_break blank, words_append begins,
    unknown.words_eq, sign.words_eq, constant.words_eq]
  exact ⟨_, rfl⟩

theorem negativeZero_constant_iff (l : Line Float) :
    (∃ word ∈ (words [' '] l.text.toList)[2]?, NegativeZero word) ↔
      Vanishes defaultPlaces l.constant := by
  obtain ⟨terms, shape⟩ := words_text l
  rw [shape, ← negativeZero_scalar_iff]
  simp

end Solutions

/-- Negative zeros are shown exactly of the numbers that vanish: by the text of a number, by a
cell of a table, and by the constant of a line. -/
theorem negativeZero_shown_iff (places : Nat) :
    (∀ x : Float, (Scalar.isFinite x = true ∧ (scalar places x).head? = some '-' ∧
      Decimal.denoted (scalar places x) = 0) ↔ Vanishes places x) ∧
    (∀ m : DenseMatrix Float, (∃ word ∈ words [' ', '\n'] (matrix places m), NegativeZero word) ↔
      ∃ i j, Vanishes places (m.grid.get i j)) ∧
    ∀ l : Line Float, (∃ word ∈ (words [' '] l.text.toList)[2]?, NegativeZero word) ↔
      Vanishes defaultPlaces l.constant :=
  ⟨begins_and_denotes_finite_iff places, negativeZero_matrix_iff places, negativeZero_constant_iff⟩

/-- Negative zeros are on display: three tenths without places and a hundred thousandth with four,
in a row beside a one, and as the constant of `x1 + x2 = -0.00001`. -/
theorem negativeZero_shown :
    scalar 0 (-0.3 : Float) = ['-', '0'] ∧
      scalar 4 (-0.00001 : Float) = ['-', '0', '.', '0', '0', '0', '0'] ∧
      Decimal.denoted ['-', '0'] = 0 ∧ Decimal.denoted ['-', '0', '.', '0', '0', '0', '0'] = 0 ∧
      matrix 4 (⟨1, 2, ⟨#v[-0.00001, 1]⟩⟩ : DenseMatrix Float) =
        "\n\n   -0.0000   1\n".toList ∧
      (LinearSystem.parametrization (⟨#v[1, 1, -0.00001]⟩ : Grid Float 1 3)).map
        (fun l => l.text) = ["x1 = -0.0000 - 1*x2"] := by
  have zeros (cs : List Char) (none : Text.digitsValue (cs.filter (· != '.')) = 0) :
      Decimal.denoted ('-' :: cs) = 0 := by
    rw [Decimal.denoted, Decimal.unsigned, none, Nat.cast_zero, zero_div, neg_zero]
  exact ⟨by decide +kernel, by decide +kernel, zeros _ (by decide), zeros _ (by decide),
    by decide +kernel, by decide +kernel⟩

end MatrixCalculator.Display
