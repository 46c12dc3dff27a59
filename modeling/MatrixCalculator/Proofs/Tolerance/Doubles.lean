import MatrixCalculator.Proofs.Double.Arithmetic
import MatrixCalculator.Proofs.Double.Whole

/-! The tolerances on doubles. A double counts as zero exactly if it lies strictly within the
absolute tolerance. Of two doubles that are nearly equal the gap is small beside their sizes, so
that a double that counts as a whole number lies close to one, and how close depends on its size.
-/
namespace MatrixCalculator.Double

variable {x y : Float} {a b v : ℚ}

section Comparison

theorem beq_iff_of_exact (left : exact x = some a) (right : exact y = some b) :
    (x == y) = true ↔ a = b := by
  rw [beq_eq, compare_exact left right, beq_iff_eq, Option.some.injEq, compare_eq_iff_eq]

theorem exact_absoluteTolerance : exact Scalar.absoluteTolerance =
    some (4951760157141521 / 4951760157141521099596496896) := by
  decide +kernel

theorem exact_relativeTolerance : exact Scalar.relativeTolerance =
    some (7737125245533627 / 77371252455336267181195264) := by
  decide +kernel

theorem exact_leastNormal : exact Scalar.leastNormal = some (2 ^ (-1022 : ℤ)) := by
  rw [exact_of_unpack unpack_leastNormal, direction, one_mul, Nat.cast_pow, Nat.cast_ofNat,
    ← zpow_natCast, ← zpow_add₀ two_ne_zero]
  rfl

theorem exact_zero : exact 0 = some 0 := by
  decide +kernel

theorem eq_of_unpack_eq (same : x.toModel.unpack = y.toModel.unpack) : x = y := by
  have packed := congrArg (Float.ofModel ∘ Float.Model.pack) same
  rw [Function.comp_apply, Function.comp_apply, pack_unpack, pack_unpack] at packed
  exact packed

/-- Nothing changes a double, be it a number or not, that is diminished by zero. -/
theorem sub_zero_eq (x : Float) : x - 0 = x := by
  apply eq_of_unpack_eq
  have result := unpack_sub x 0
  cases shape : x.toModel.unpack with
  | infinity s => rw [shape] at result; exact result.trans (unpack_pack_infinity s)
  | notANumber => rw [shape] at result; exact result.trans unpack_pack_notANumber
  | zero s => rw [shape] at result; cases s <;> exact result.trans (unpack_pack_zero _)
  | finite s m q positive =>
    rw [shape] at result
    exact result.trans (unpack_pack s positive (canonical_of_unpack shape))

theorem exact_sub_zero (known : exact x = some v) : exact (x - 0) = some v := by
  rwa [sub_zero_eq]

/-- A double counts as zero if it is smaller than the absolute tolerance. -/
theorem isZero_iff_of_exact (known : exact x = some v) :
    isZero x = true ↔ |v| < 4951760157141521 / 4951760157141521099596496896 := by
  have gap := exact_magnitude (exact_sub_zero known)
  have none : ((0 : Float) == 0) = true := (beq_iff_of_exact exact_zero exact_zero).mpr rfl
  have tested : isZero x = true ↔ v = 0 ∨ Scalar.magnitude (x - 0) < Scalar.absoluteTolerance := by
    rw [← beq_iff_of_exact known exact_zero]
    unfold isZero nearlyEqual
    simp only [none, Bool.or_true, if_true]
    split
    · next same => simp [same]
    · next other => simp [other]
  rw [tested, lt_iff_of_exact gap exact_absoluteTolerance]
  constructor
  · rintro (rfl | near)
    · norm_num
    · exact near
  · exact .inr

end Comparison

section Gap

theorem Rounded.magnitude (rounded : Rounded v x) : Rounded |v| (Scalar.magnitude x) := by
  obtain ⟨w, known, near⟩ := rounded
  refine ⟨|w|, exact_magnitude known, ?_⟩
  rw [abs_abs]
  exact (abs_abs_sub_abs_le w v).trans near

/-- What a positive number has been rounded to is positive and near. -/
theorem Rounded.bounds (rounded : Rounded v x) (positive : 0 < v) :
    ∃ w, exact x = some w ∧ 0 < w ∧ v ≤ w * (1 + 1 / 2 ^ 53) ∧ w * (1 - 1 / 2 ^ 53) ≤ v := by
  obtain ⟨w, known, near⟩ := rounded
  have above : 0 < w := by
    by_contra below
    rw [abs_of_nonpos (not_lt.mp below), abs_le] at near
    linarith [near.1, not_lt.mp below]
  rw [abs_of_pos above, abs_le] at near
  exact ⟨w, known, above, by linarith [near.1], by linarith [near.2]⟩

theorem normal_of_bounds (lower : 1 / 2 ^ 200 ≤ |v|) (upper : |v| ≤ 2 ^ 200) : Normal v := by
  have room : 2 ^ 200 ≤ largest := by decide +kernel
  rw [one_div, ← zpow_natCast, ← zpow_neg] at lower
  exact ⟨(zpow_le_zpow_right₀ one_le_two (by decide)).trans lower,
    upper.trans (by exact_mod_cast room)⟩

/-- Between numbers that are no zeros and not small the test of the tolerance is one of a ratio. -/
theorem ratio_lt_of_nearlyEqual {size ratio : ℚ} (left : exact x = some a) (right : exact y = some b)
    (differ : a ≠ b) (first : a ≠ 0) (second : b ≠ 0)
    (size_known : exact (Scalar.magnitude x + Scalar.magnitude y) = some size)
    (large : 2 ^ (-1022 : ℤ) ≤ size) (ratio_known : exact (Scalar.magnitude (x - y) /
      (Scalar.magnitude x + Scalar.magnitude y)) = some ratio) (near : nearlyEqual x y = true) :
    ratio < 7737125245533627 / 77371252455336267181195264 := by
  have other : (x == y) = false := Bool.eq_false_iff.mpr (mt (beq_iff_of_exact left right).mp differ)
  have some_left : (x == 0) = false :=
    Bool.eq_false_iff.mpr (mt (beq_iff_of_exact left exact_zero).mp first)
  have some_right : (y == 0) = false :=
    Bool.eq_false_iff.mpr (mt (beq_iff_of_exact right exact_zero).mp second)
  have normal : ¬Scalar.magnitude x + Scalar.magnitude y < Scalar.leastNormal := by
    rw [lt_iff_of_exact size_known exact_leastNormal]
    exact not_lt.mpr large
  rw [← lt_iff_of_exact ratio_known exact_relativeTolerance]
  simpa [nearlyEqual, other, some_left, some_right, normal] using near

/-- If two doubles are nearly equal, none of them a zero and not both small, then their gap is small
beside their sizes. -/
theorem gap_lt_of_nearlyEqual (left : exact x = some a) (right : exact y = some b)
    (first : a ≠ 0) (second : b ≠ 0) (apart : 1 / 10 ^ 12 ≤ |a - b|) (large : 1 ≤ |a| + |b|)
    (bounded : |a| + |b| ≤ 2 ^ 60) (near : nearlyEqual x y = true) :
    (10 ^ 10 - 1 / 2) * |a - b| < |a| + |b| := by
  have positive : 0 < |a - b| := lt_of_lt_of_le (by norm_num) apart
  have total : |(|a| + |b|)| = |a| + |b| := abs_of_nonneg (by positivity)
  have within : |a - b| ≤ |a| + |b| := abs_sub a b
  have gap_normal : Normal (a - b) :=
    normal_of_bounds (by linarith) (by linarith)
  have size_normal : Normal (|a| + |b|) :=
    normal_of_bounds (by rw [total]; linarith) (by rw [total]; linarith)
  obtain ⟨gap, gap_known, gap_positive, le_gap, gap_le⟩ :=
    (rounded_sub left right gap_normal).magnitude.bounds positive
  obtain ⟨size, size_known, size_positive, le_size, size_le⟩ :=
    (rounded_add (exact_magnitude left) (exact_magnitude right) size_normal).bounds (by linarith)
  have quotient_positive : 0 < gap / size := div_pos gap_positive size_positive
  have ratio_normal : Normal (gap / size) := by
    apply normal_of_bounds <;> rw [abs_of_pos quotient_positive]
    · rw [le_div_iff₀ size_positive]
      linarith
    · rw [div_le_iff₀ size_positive]
      linarith
  obtain ⟨ratio, ratio_known, -, le_ratio, -⟩ :=
    (rounded_div gap_known size_known ratio_normal).bounds quotient_positive
  have half : (2 : ℚ) ^ (-1022 : ℤ) ≤ 2 ^ (-1 : ℤ) := zpow_le_zpow_right₀ one_le_two (by decide)
  rw [zpow_neg_one] at half
  have small := ratio_lt_of_nearlyEqual left right (sub_ne_zero.mp (abs_pos.mp positive)) first second
    size_known (by linarith) ratio_known near
  rw [div_le_iff₀ size_positive] at le_ratio
  have scaled : gap < 7737125245533627 / 77371252455336267181195264 * (1 + 1 / 2 ^ 53) * size := by
    refine le_ratio.trans_lt (mul_lt_mul_of_pos_right ?_ size_positive)
    linarith
  linarith

end Gap

section Integral

theorem exact_ofInt {k : ℤ} (known : exact (Float.ofNat k.natAbs) = some (k.natAbs : ℚ)) :
    exact (Float.ofInt k) = some (k : ℚ) := by
  cases k with
  | ofNat k => exact known
  | negSucc k =>
    refine (exact_neg known).trans ?_
    rw [Int.natAbs_negSucc, Int.cast_negSucc]

/-- A finite double that is no whole number has fewer than 53 digits before the point. -/
theorem integral_or_small (known : exact x = some v) :
    (∃ k : ℤ, v = k ∧ exact (Float.ofInt k) = some (k : ℚ)) ∨ |v| ≤ (2 ^ 53 - 1 : Nat) := by
  obtain ⟨s, shape, rfl⟩ | ⟨s, m, q, positive, shape, fits, rfl⟩ := cases_of_exact known
  · exact .inr (by rw [abs_zero]; positivity)
  · rcases Int.le_total 0 q with whole | fraction
    · obtain ⟨t, rfl⟩ := Int.eq_ofNat_of_zero_le whole
      have value : ((m * 2 ^ t : Nat) : ℚ) = m * 2 ^ (t : ℤ) := by
        rw [zpow_natCast, Nat.cast_mul, Nat.cast_pow, Nat.cast_ofNat]
      have size : (s.apply (m * 2 ^ t : Nat)).natAbs = m * 2 ^ t := by
        cases s
        · exact Int.natAbs_neg _
        · rfl
      refine .inl ⟨s.apply (m * 2 ^ t : Nat), ?_, exact_ofInt ?_⟩
      · rw [cast_apply, Int.cast_natCast, value]
      · rw [size]
        exact exact_ofNat positive fits value
    · have unit : (2 : ℚ) ^ q ≤ 1 := zpow_le_one_of_nonpos₀ one_le_two fraction
      have digits : (m : ℚ) ≤ (2 ^ 53 - 1 : Nat) := by exact_mod_cast Nat.le_pred_of_lt fits.mantissa
      have size : 0 < (m * 2 ^ q : ℚ) := mul_pos (by exact_mod_cast positive) (unit_pos q)
      rw [abs_mul, abs_direction, one_mul, abs_of_pos size]
      exact .inr ((mul_le_of_le_one_right (Nat.cast_nonneg m) unit).trans digits)

/-- The whole number nearest to a double is a double. -/
theorem exact_ofInt_nearest (known : exact x = some v) :
    exact (Float.ofInt (Rounding.nearest v)) = some (Rounding.nearest v : ℚ) := by
  rcases integral_or_small known with ⟨k, rfl, whole⟩ | small
  · rwa [Rounding.nearest_intCast]
  · have short := Rounding.natAbs_nearest_le small
    exact exact_ofInt (exact_ofNat_of_short (by omega))

theorem isIntegral_of_exact (known : exact x = some v) :
    isIntegral x = nearlyEqual x (Float.ofInt (Rounding.nearest v)) := by
  have rounded : Scalar.nearest x = some (Rounding.nearest v) :=
    congrArg (Option.map Rounding.nearest) known
  rw [isIntegral, rounded]
  rfl

theorem isIntegral_of_nearest_zero (known : exact x = some v) (zero : Rounding.nearest v = 0) :
    isIntegral x = isZero x := by
  rw [isIntegral_of_exact known, zero]
  rfl

/-- A double that counts as a whole number is so close to it as its size allows. -/
theorem distance_lt_of_isIntegral (known : exact x = some v) (integral : isIntegral x = true)
    (apart : 1 / 10 ^ 12 ≤ |v - Rounding.nearest v|) :
    (10 ^ 10 - 3 / 2) * |v - Rounding.nearest v| < 2 * |v| := by
  rcases eq_or_ne (Rounding.nearest v) 0 with zero | some
  · rw [isIntegral_of_nearest_zero known zero, isZero_iff_of_exact known] at integral
    rw [zero, Int.cast_zero, sub_zero] at apart
    linarith
  · have first : v ≠ 0 := by
      rintro rfl
      exact some (Rounding.nearest_intCast 0)
    have second : (Rounding.nearest v : ℚ) ≠ 0 := Int.cast_ne_zero.mpr some
    have unit : 1 ≤ |(Rounding.nearest v : ℚ)| := by exact_mod_cast Int.one_le_abs some
    have half := Rounding.abs_sub_nearest_le v
    have small : |v| ≤ (2 ^ 53 - 1 : Nat) := by
      refine (integral_or_small known).resolve_left ?_
      rintro ⟨k, rfl, -⟩
      rw [Rounding.nearest_intCast, sub_self, abs_zero] at apart
      exact absurd apart (by norm_num)
    have whole : |(Rounding.nearest v : ℚ)| ≤ |v| + |v - Rounding.nearest v| := by
      rw [abs_sub_comm]
      linarith [abs_sub_abs_le_abs_sub (Rounding.nearest v : ℚ) v]
    rw [isIntegral_of_exact known] at integral
    have gap := gap_lt_of_nearlyEqual known (exact_ofInt_nearest known) first second apart
      (by linarith [abs_nonneg v]) (by norm_num at small ⊢; linarith) integral
    linarith

end Integral

end MatrixCalculator.Double
