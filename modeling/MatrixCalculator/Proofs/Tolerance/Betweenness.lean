import MatrixCalculator.Proofs.LinearSystem.Residual
import Mathlib.Algebra.Order.Group.Pointwise.Interval

/-! Numbers between two nearly equal ones. One that is moved towards the other stays nearly equal to
it, except where the comparison changes its measure: when it leaves an exact zero, or when the sizes
fall below the least normal number and the allowance drops to a hundredth. -/
namespace MatrixCalculator

/-- The gap at which two numbers, none of them zero, are no longer nearly equal, by the sum of their
sizes. -/
def allowance (size : ℚ) : ℚ :=
  if size < Scalar.leastNormal then Scalar.absoluteTolerance * Scalar.leastNormal
  else Scalar.relativeTolerance * size

/-- Whether `b` is too far from `a` to be nearly equal to it, although it lies between `a` and a
nearly equal number `c`: the move from `c` to `b` leaves an exact zero, or goes from sizes that are
normal to sizes that are not. -/
structure Loses (a b c : ℚ) : Prop where
  fixed : a ≠ 0
  moved : b ≠ 0
  changes : c = 0 ∨ |a| + |b| < Scalar.leastNormal ∧ Scalar.leastNormal ≤ |a| + |c|
  far : allowance (|a| + |b|) ≤ |a - b|

theorem leastNormal_pos : (0 : ℚ) < Scalar.leastNormal := by
  rw [leastNormal_rat]
  positivity

theorem leastNormal_le_one : (Scalar.leastNormal : ℚ) ≤ 1 := by
  have half : (1 : ℚ) / 2 ^ 1022 ≤ 1 / 2 ^ 7 :=
    one_div_le_one_div_of_le (by norm_num) (pow_le_pow_right₀ (by norm_num) (by norm_num))
  rw [leastNormal_rat]
  exact half.trans (by norm_num)

/-- The allowance for numbers below the least normal one. -/
theorem allowance_of_lt {size : ℚ} (small : size < Scalar.leastNormal) :
    allowance size = 1 / 10 ^ 12 * Scalar.leastNormal := by
  rw [allowance, if_pos small, absoluteTolerance_rat]

theorem allowance_of_le {size : ℚ} (normal : Scalar.leastNormal ≤ size) :
    allowance size = 1 / 10 ^ 10 * size := by
  rw [allowance, if_neg (not_lt.mpr normal), relativeTolerance_rat]

theorem allowance_pos (size : ℚ) : 0 < allowance size := by
  rcases lt_or_ge size Scalar.leastNormal with small | normal
  · rw [allowance_of_lt small]
    exact mul_pos (by norm_num) leastNormal_pos
  · rw [allowance_of_le normal]
    exact mul_pos (by norm_num) (leastNormal_pos.trans_le normal)

theorem nearlyEqual_iff_gap {a b : ℚ} (left : a ≠ 0) (right : b ≠ 0) :
    nearlyEqual a b = true ↔ |a - b| < allowance (|a| + |b|) := by
  have sizes : 0 < |a| + |b| := add_pos_of_pos_of_nonneg (abs_pos.mpr left) (abs_nonneg b)
  rw [nearlyEqual_iff]
  by_cases same : a = b
  · subst same
    simp [allowance_pos]
  · simp only [same, left, right, false_or, false_and, ne_eq, not_false_eq_true, true_and,
      ← leastNormal_rat]
    rcases lt_or_ge (|a| + |b|) Scalar.leastNormal with small | normal
    · rw [if_pos small, allowance_of_lt small]
    · rw [if_neg (not_lt.mpr normal), allowance_of_le normal, div_lt_iff₀ sizes]

theorem nearlyEqual_zero_iff (a : ℚ) : nearlyEqual a 0 = true ↔ |a| < 1 / 10 ^ 12 :=
  isZero_iff a

theorem nearlyEqual_comm (a b : ℚ) : nearlyEqual a b = nearlyEqual b a := by
  rw [Bool.eq_iff_iff, nearlyEqual_iff, nearlyEqual_iff, abs_sub_comm a b, add_comm |a|,
    eq_comm (a := a), or_comm (a := a = 0), and_left_comm]

theorem DenseMatrix.approxEqual_comm {m n : Nat} (g h : Grid ℚ m n) :
    (ofGrid g).approxEqual (ofGrid h) = (ofGrid h).approxEqual (ofGrid g) := by
  rw [Bool.eq_iff_iff, approxEqual_ofGrid_iff, approxEqual_ofGrid_iff]
  exact forall₂_congr fun i j => by rw [nearlyEqual_comm]

section Between

variable {a b c : ℚ}

theorem gap_le (between : b ∈ Set.uIcc a c) : |a - b| ≤ |a - c| := by
  rw [abs_sub_comm a b, abs_sub_comm a c]
  exact Set.abs_sub_left_of_mem_uIcc between

theorem neg_mem_uIcc (between : b ∈ Set.uIcc a c) : -b ∈ Set.uIcc (-a) (-c) := by
  rw [Set.mem_uIcc] at between ⊢
  simp only [neg_le_neg_iff]
  tauto

theorem gap_lt_of_nonneg (nonneg : 0 ≤ a) (between : b ∈ Set.uIcc a c)
    (close : |a - c| < 1 / 10 ^ 10 * (|a| + |c|)) : |a - b| < 1 / 10 ^ 10 * (|a| + |b|) := by
  have right : 0 ≤ c := by
    by_contra negative
    rw [abs_of_nonneg nonneg, abs_of_neg (not_le.mp negative), abs_of_pos (by linarith)] at close
    linarith
  have middle : 0 ≤ b := (le_min nonneg right).trans between.1
  rw [abs_of_nonneg nonneg, abs_of_nonneg right, abs_lt] at close
  rw [abs_of_nonneg nonneg, abs_of_nonneg middle, abs_lt]
  rcases Set.mem_uIcc.mp between with ⟨low, high⟩ | ⟨low, high⟩
  · exact ⟨by linarith, by linarith⟩
  · exact ⟨by linarith, by linarith⟩

/-- A gap that is small against the sizes of two numbers stays so when one of them is moved towards
the other. -/
theorem gap_lt_of_between (between : b ∈ Set.uIcc a c)
    (close : |a - c| < 1 / 10 ^ 10 * (|a| + |c|)) : |a - b| < 1 / 10 ^ 10 * (|a| + |b|) := by
  rcases le_total 0 a with nonneg | nonpos
  · exact gap_lt_of_nonneg nonneg between close
  · have mirrored (x : ℚ) : |-a - -x| = |a - x| := by rw [neg_sub_neg, abs_sub_comm]
    have moved := gap_lt_of_nonneg (neg_nonneg.mpr nonpos) (neg_mem_uIcc between)
    rw [mirrored, mirrored, abs_neg, abs_neg, abs_neg] at moved
    exact moved close

/-- Numbers of different signs are nearly equal only if both are within the absolute tolerance. -/
theorem nearlyEqual_zero_of_between (between : 0 ∈ Set.uIcc a c)
    (close : nearlyEqual a c = true) : nearlyEqual a 0 = true := by
  by_cases fixed : a = 0
  · subst fixed
    exact isZero_zero
  by_cases right : c = 0
  · subst right
    exact close
  have sizes : |a - c| = |a| + |c| := by
    rcases Set.mem_uIcc.mp between with ⟨low, high⟩ | ⟨low, high⟩
    · rw [abs_of_nonpos low, abs_of_nonneg high, abs_of_nonpos (by linarith)]
      ring
    · rw [abs_of_nonneg high, abs_of_nonpos low, abs_of_nonneg (by linarith)]
      ring
  have positive : 0 < |a| := abs_pos.mpr fixed
  have other := abs_nonneg c
  rw [nearlyEqual_iff_gap fixed right, sizes] at close
  rw [nearlyEqual_zero_iff]
  rcases lt_or_ge (|a| + |c|) Scalar.leastNormal with small | normal
  · have least := leastNormal_le_one
    rw [allowance_of_lt small] at close
    linarith
  · rw [allowance_of_le normal] at close
    linarith

/-- If the comparison does not change its measure, a gap that was allowed stays allowed. -/
theorem gap_lt_allowance (between : b ∈ Set.uIcc a c)
    (keeps : ¬(|a| + |b| < Scalar.leastNormal ∧ Scalar.leastNormal ≤ |a| + |c|))
    (close : |a - c| < allowance (|a| + |c|)) : |a - b| < allowance (|a| + |b|) := by
  have least := leastNormal_pos
  have shrinks := gap_le between
  rcases lt_or_ge (|a| + |b|) Scalar.leastNormal with small | normal
  · have other : |a| + |c| < Scalar.leastNormal := not_le.mp fun large => keeps ⟨small, large⟩
    rw [allowance_of_lt other] at close
    rw [allowance_of_lt small]
    exact shrinks.trans_lt close
  · rw [allowance_of_le normal]
    rcases lt_or_ge (|a| + |c|) Scalar.leastNormal with other | large
    · rw [allowance_of_lt other] at close
      linarith
    · rw [allowance_of_le large] at close
      exact gap_lt_of_between between close

theorem nearlyEqual_between (between : b ∈ Set.uIcc a c) (close : nearlyEqual a c = true) :
    nearlyEqual a b = true ↔ ¬Loses a b c := by
  by_cases zero : a = 0
  · subst zero
    refine iff_of_true ?_ fun loses => loses.fixed rfl
    have smaller := gap_le between
    rw [nearlyEqual_comm, nearlyEqual_zero_iff] at close ⊢
    simp only [zero_sub, abs_neg] at smaller
    exact smaller.trans_lt close
  by_cases left : b = 0
  · subst left
    exact iff_of_true (nearlyEqual_zero_of_between between close) fun loses => loses.moved rfl
  rw [nearlyEqual_iff_gap zero left]
  constructor
  · exact fun allowed loses => absurd allowed (not_lt.mpr loses.far)
  · intro keeps
    by_contra far
    have stays := fun changes => keeps ⟨zero, left, changes, not_lt.mp far⟩
    have right : c ≠ 0 := fun exact_zero => stays (.inl exact_zero)
    rw [nearlyEqual_iff_gap zero right] at close
    exact far (gap_lt_allowance between (fun crosses => stays (.inr crosses)) close)

theorem approxEqual_between {m n : Nat} {A B C : Grid ℚ m n}
    (between : ∀ i j, B.get i j ∈ Set.uIcc (A.get i j) (C.get i j))
    (close : (DenseMatrix.ofGrid A).approxEqual (DenseMatrix.ofGrid C) = true) :
    (DenseMatrix.ofGrid A).approxEqual (DenseMatrix.ofGrid B) = true ↔
      ∀ i j, ¬Loses (A.get i j) (B.get i j) (C.get i j) := by
  rw [DenseMatrix.approxEqual_ofGrid_iff] at close ⊢
  exact forall₂_congr fun i j => nearlyEqual_between (between i j) (close i j)

end Between

structure Betweenness : Prop where
  ordered : ∀ a b c : ℚ, a ≤ b → b ≤ c → nearlyEqual a c = true →
    (nearlyEqual a b = true ↔ ¬Loses a b c) ∧ (nearlyEqual b c = true ↔ ¬Loses c b a)
  moved : ∀ a b c : ℚ, b ∈ Set.uIcc a c → nearlyEqual a c = true →
    (nearlyEqual a b = true ↔ ¬Loses a b c)
  matrices : ∀ {m n : Nat} (A B C : Grid ℚ m n),
    (∀ i j, B.get i j ∈ Set.uIcc (A.get i j) (C.get i j)) →
    (DenseMatrix.ofGrid A).approxEqual (DenseMatrix.ofGrid C) = true →
    ((DenseMatrix.ofGrid A).approxEqual (DenseMatrix.ofGrid B) = true ↔
      ∀ i j, ¬Loses (A.get i j) (B.get i j) (C.get i j)) ∧
    ((DenseMatrix.ofGrid B).approxEqual (DenseMatrix.ofGrid C) = true ↔
      ∀ i j, ¬Loses (C.get i j) (B.get i j) (A.get i j))

/-- A number that is moved towards a nearly equal one stays nearly equal to it exactly if the
comparison keeps its measure or the gap is allowed by the new one. -/
theorem betweenness : Betweenness where
  ordered a b c low high close := by
    have between : b ∈ Set.uIcc a c := Set.mem_uIcc.mpr (.inl ⟨low, high⟩)
    refine ⟨nearlyEqual_between between close, ?_⟩
    rw [nearlyEqual_comm] at close ⊢
    exact nearlyEqual_between (Set.uIcc_comm a c ▸ between) close
  moved _ _ _ between close := nearlyEqual_between between close
  matrices A B C between close := by
    refine ⟨approxEqual_between between close, ?_⟩
    have swapped : ∀ i j, B.get i j ∈ Set.uIcc (C.get i j) (A.get i j) := by
      intro i j
      rw [Set.uIcc_comm]
      exact between i j
    rw [DenseMatrix.approxEqual_comm] at close ⊢
    exact approxEqual_between swapped close

/-- Between numbers near one nothing is lost, but moving zero towards `5e-13` is. -/
theorem betweenness_near_one_and_zero :
    ((1 : ℚ) ≤ 1 + 1 / 10 ^ 11 ∧ (1 : ℚ) + 1 / 10 ^ 11 ≤ 1 + 1 / 10 ^ 10 ∧
      nearlyEqual (1 : ℚ) (1 + 1 / 10 ^ 10) = true ∧
      nearlyEqual (1 : ℚ) (1 + 1 / 10 ^ 11) = true ∧
      nearlyEqual (1 + 1 / 10 ^ 11 : ℚ) (1 + 1 / 10 ^ 10) = true) ∧
    (0 : ℚ) ≤ 1 / 10 ^ 13 ∧ (1 / 10 ^ 13 : ℚ) ≤ 5 / 10 ^ 13 ∧
      nearlyEqual (0 : ℚ) (5 / 10 ^ 13) = true ∧ Loses (5 / 10 ^ 13) (1 / 10 ^ 13) 0 ∧
      nearlyEqual (1 / 10 ^ 13 : ℚ) (5 / 10 ^ 13) = false := by
  have keeps (a c : ℚ) (apart : c ≠ 0) (sized : 1 ≤ |a| + |(1 + 1 / 10 ^ 11 : ℚ)|) :
      ¬Loses a (1 + 1 / 10 ^ 11) c := by
    rintro ⟨-, -, zero | ⟨small, -⟩, -⟩
    · exact apart zero
    · exact absurd small (not_lt.mpr (leastNormal_le_one.trans sized))
  have first : (1 : ℚ) ≤ 1 + 1 / 10 ^ 11 := by norm_num
  have second : (1 : ℚ) + 1 / 10 ^ 11 ≤ 1 + 1 / 10 ^ 10 := by norm_num
  have close : nearlyEqual (1 : ℚ) (1 + 1 / 10 ^ 10) = true := by decide +kernel
  have near := betweenness.ordered _ _ _ first second close
  have above : (0 : ℚ) ≤ 1 / 10 ^ 13 := by norm_num
  have below : (1 / 10 ^ 13 : ℚ) ≤ 5 / 10 ^ 13 := by norm_num
  have counted : nearlyEqual (0 : ℚ) (5 / 10 ^ 13) = true := by decide +kernel
  have loses : Loses (5 / 10 ^ 13) (1 / 10 ^ 13) 0 :=
    ⟨by norm_num, by norm_num, .inl rfl, by decide +kernel⟩
  have left := betweenness.ordered _ _ _ above below counted
  exact ⟨⟨first, second, close,
    near.1.mpr (keeps _ _ (by norm_num) (by decide +kernel)),
    near.2.mpr (keeps _ _ (by norm_num) (by decide +kernel))⟩,
    above, below, counted, loses, Bool.eq_false_iff.mpr fun same => left.2.mp same loses⟩

/-- Two numbers that are nearly equal, and a number between them that is not nearly equal to one of
them: against zero, and around half the least normal number. -/
theorem closeness_lost :
    ((0 : ℚ) ≤ 1 / 10 ^ 13 ∧ (1 / 10 ^ 13 : ℚ) ≤ 5 / 10 ^ 13 ∧
      nearlyEqual (0 : ℚ) (5 / 10 ^ 13) = true ∧
      nearlyEqual (1 / 10 ^ 13 : ℚ) (5 / 10 ^ 13) = false) ∧
    (1 / 2 - 2 / 10 ^ 11) * Scalar.leastNormal ≤ 1 / 2 * (Scalar.leastNormal : ℚ) ∧
      1 / 2 * (Scalar.leastNormal : ℚ) ≤ (1 / 2 + 3 / 10 ^ 11) * Scalar.leastNormal ∧
      nearlyEqual ((1 / 2 - 2 / 10 ^ 11) * Scalar.leastNormal : ℚ)
        ((1 / 2 + 3 / 10 ^ 11) * Scalar.leastNormal) = true ∧
      nearlyEqual ((1 / 2 - 2 / 10 ^ 11) * Scalar.leastNormal : ℚ)
        (1 / 2 * Scalar.leastNormal) = false := by
  decide +kernel

end MatrixCalculator
