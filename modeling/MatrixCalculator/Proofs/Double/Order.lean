import MatrixCalculator.Proofs.Double.Range
import MatrixCalculator.Proofs.Double.Rounding

/-! The order of doubles. Finite doubles compare as the rational numbers that they stand for: a
larger exponent outweighs every mantissa, since only the least exponent has short ones. -/
namespace MatrixCalculator.Double

open Float.Model

variable {m n : Nat} {p q : Int}

theorem Canonical.lt_of_exponent_lt (left : Canonical m p) (right : Canonical n q)
    (lower : p < q) : (m * 2 ^ p : ℚ) < n * 2 ^ q := by
  have long : 2 ^ 52 ≤ n := right.normal.resolve_right (by have := left.lower; omega)
  have digits : (m : ℚ) < 2 ^ 53 := by exact_mod_cast left.mantissa
  have leading : (2 : ℚ) ^ 52 ≤ n := by exact_mod_cast long
  calc (m * 2 ^ p : ℚ) < 2 ^ 53 * 2 ^ p := mul_lt_mul_of_pos_right digits (unit_pos p)
    _ = 2 ^ 52 * 2 ^ (p + 1) := by rw [zpow_add_one₀ two_ne_zero]; ring
    _ ≤ 2 ^ 52 * 2 ^ q := by
      gcongr
      · norm_num
      · exact lower
    _ ≤ n * 2 ^ q := mul_le_mul_of_nonneg_right leading (unit_pos q).le

theorem Canonical.compare_eq (left : Canonical m p) (right : Canonical n q) :
    (compare p q).then (compare m n) = compare (m * 2 ^ p : ℚ) (n * 2 ^ q) := by
  rcases lt_trichotomy p q with lower | rfl | higher
  · rw [compare_lt_iff_lt.mpr lower, compare_lt_iff_lt.mpr (left.lt_of_exponent_lt right lower)]
    rfl
  · have scaled : StrictMono fun k : Nat => (k * 2 ^ p : ℚ) := fun _ _ less =>
      mul_lt_mul_of_pos_right (by exact_mod_cast less) (unit_pos p)
    rw [compare_eq_iff_eq.mpr rfl, Ordering.eq_then, ← cmp_eq_compare, ← cmp_eq_compare]
    exact (scaled.cmp_map_eq m n).symm
  · rw [compare_gt_iff_gt.mpr higher, compare_gt_iff_gt.mpr (right.lt_of_exponent_lt left higher)]
    rfl

theorem compare_neg (a b : ℚ) : compare (-a) (-b) = (compare a b).swap := by
  have reversed : StrictAnti fun c : ℚ => -c := fun _ _ less => neg_lt_neg less
  rw [← cmp_eq_compare, ← cmp_eq_compare, cmp_swap]
  exact reversed.cmp_map_eq a b

inductive Shape (u : UnpackedFloat) (a : ℚ) : Prop
  | zero (sign : UnpackedFloat.Sign) (shape : u = .zero sign) (value : a = 0)
  | positive (m : Nat) (q : Int) (some : 0 < m) (shape : u = .finite .positive m q some)
      (fits : Canonical m q) (value : a = m * 2 ^ q)
  | negative (m : Nat) (q : Int) (some : 0 < m) (shape : u = .finite .negative m q some)
      (fits : Canonical m q) (value : a = -(m * 2 ^ q))

theorem shape_of_exact {x : Float} {a : ℚ} (known : exact x = some a) :
    Shape x.toModel.unpack a := by
  unfold exact at known
  cases shape : x.toModel.unpack with
  | infinity sign => rw [shape] at known; cases known
  | notANumber => rw [shape] at known; cases known
  | zero sign =>
    rw [shape] at known
    exact .zero sign rfl (Option.some.inj known).symm
  | finite sign m q some =>
    rw [shape] at known
    have value := (Option.some.inj known).symm
    rw [power_eq] at value
    cases sign with
    | positive =>
      refine .positive m q some rfl (canonical_of_unpack shape) (value.trans ?_)
      simp [UnpackedFloat.Sign.apply]
    | negative =>
      refine .negative m q some rfl (canonical_of_unpack shape) (value.trans ?_)
      simp [UnpackedFloat.Sign.apply]

/-- Finite doubles compare as their exact values do. -/
theorem compare_exact {x y : Float} {a b : ℚ} (left : exact x = some a)
    (right : exact y = some b) :
    x.toModel.unpack.compare y.toModel.unpack = some (compare a b) := by
  have size {m : Nat} {q : Int} (some : 0 < m) : (0 : ℚ) < m * 2 ^ q :=
    mul_pos (by exact_mod_cast some) (unit_pos q)
  obtain ⟨_, shape, rfl⟩ | ⟨m, p, some, shape, fits, rfl⟩ | ⟨m, p, some, shape, fits, rfl⟩ :=
      shape_of_exact left <;>
    obtain ⟨_, other, rfl⟩ | ⟨n, q, more, other, room, rfl⟩ | ⟨n, q, more, other, room, rfl⟩ :=
      shape_of_exact right <;>
    rw [shape, other]
  · rfl
  · rw [compare_lt_iff_lt.mpr (size more)]
    rfl
  · rw [compare_gt_iff_gt.mpr (neg_neg_of_pos (size more))]
    rfl
  · rw [compare_gt_iff_gt.mpr (size some)]
    rfl
  · rw [← fits.compare_eq room]
    rfl
  · rw [compare_gt_iff_gt.mpr ((neg_neg_of_pos (size more)).trans (size some))]
    rfl
  · rw [compare_lt_iff_lt.mpr (neg_neg_of_pos (size some))]
    rfl
  · rw [compare_lt_iff_lt.mpr ((neg_neg_of_pos (size some)).trans (size more))]
    rfl
  · rw [compare_neg, ← fits.compare_eq room]
    rfl

theorem lt_iff_of_exact {x y : Float} {a b : ℚ} (left : exact x = some a)
    (right : exact y = some b) : x < y ↔ a < b := by
  rw [lt_iff, compare_exact left right, beq_iff_eq, Option.some.injEq, compare_lt_iff_lt]

end MatrixCalculator.Double
