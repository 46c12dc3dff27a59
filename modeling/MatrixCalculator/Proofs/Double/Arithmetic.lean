import MatrixCalculator.Proofs.Double.Neighbourhood
import MatrixCalculator.Proofs.Double.NotFinite

/-! Sums, differences and quotients of doubles. If the exact result is in the range of the normal
doubles, then the computed one is finite and differs from it by at most half a unit of the last of
its 53 digits. -/
namespace MatrixCalculator.Double

open Float.Model MatrixCalculator.Decimal

variable {x y : Float} {a b v : ℚ} {m : Nat} {q : Int} {s t : UnpackedFloat.Sign}

structure Normal (v : ℚ) : Prop where
  lower : (2 : ℚ) ^ (-1022 : ℤ) ≤ |v|
  upper : |v| ≤ largest

theorem Normal.ne_zero (normal : Normal v) : v ≠ 0 := by
  rintro rfl
  exact (unit_pos _).not_ge (abs_zero (α := ℚ) ▸ normal.lower)

def Rounded (v : ℚ) (x : Float) : Prop :=
  ∃ w, exact x = some w ∧ |w - v| ≤ |w| / 2 ^ 53

theorem rounded_exact (known : exact x = some v) : Rounded v x :=
  ⟨v, known, by rw [sub_self, abs_zero]; positivity⟩

section Signs

def direction : UnpackedFloat.Sign → ℚ
  | .negative => -1
  | .positive => 1

theorem abs_direction (s : UnpackedFloat.Sign) : |direction s| = 1 := by
  cases s <;> simp [direction]

theorem direction_neg (s : UnpackedFloat.Sign) : direction (-s) = -direction s := by
  cases s
  · exact (neg_neg 1).symm
  · rfl

theorem direction_div (s t : UnpackedFloat.Sign) :
    direction (s / t) = direction s / direction t := by
  cases s <;> cases t
  · exact (div_self (neg_ne_zero.mpr one_ne_zero)).symm
  · exact (div_one (-1)).symm
  · exact (one_div_neg_one_eq_neg_one (R := ℚ)).symm
  · exact (div_one 1).symm

theorem apply_neg (s : UnpackedFloat.Sign) (k : Int) : (-s).apply k = -s.apply k := by
  cases s
  · exact (neg_neg k).symm
  · rfl

theorem cast_apply (s : UnpackedFloat.Sign) (k : Int) :
    ((s.apply k : Int) : ℚ) = direction s * k := by
  cases s <;> simp [UnpackedFloat.Sign.apply, direction]

theorem exact_of_unpack {positive : 0 < m} (shape : x.toModel.unpack = .finite s m q positive) :
    exact x = some (direction s * (m * 2 ^ q)) := by
  unfold exact
  rw [shape]
  dsimp only
  rw [power_eq, cast_apply, mul_assoc]
  rfl

/-- A finite double is a zero or a signed multiple of a power of two. -/
theorem cases_of_exact (known : exact x = some a) :
    (∃ s, x.toModel.unpack = .zero s ∧ a = 0) ∨
      ∃ s m q positive, x.toModel.unpack = .finite s m q positive ∧ Canonical m q ∧
        a = direction s * (m * 2 ^ q) := by
  cases shape : x.toModel.unpack with
  | infinity s => simp [exact, shape] at known
  | notANumber => simp [exact, shape] at known
  | zero s => exact .inl ⟨s, rfl, by simpa [exact, shape] using known.symm⟩
  | finite s m q positive =>
    rw [exact_of_unpack shape] at known
    exact .inr ⟨s, m, q, positive, rfl, canonical_of_unpack shape, (Option.some.inj known).symm⟩

theorem exact_of_zero (shape : x.toModel.unpack = .zero s) : exact x = some 0 := by
  unfold exact
  rw [shape]

theorem unpack_neg (x : Float) : (-x).toModel.unpack = x.toModel.unpack.neg := by
  have packed : (-x).toModel.unpack = (pack x.toModel.unpack.neg).unpack := rfl
  rw [packed]
  cases shape : x.toModel.unpack with
  | infinity s => exact unpack_pack_infinity (-s)
  | notANumber => exact unpack_pack_notANumber
  | zero s => exact unpack_pack_zero (-s)
  | finite s m q positive => exact unpack_pack (-s) positive (canonical_of_unpack shape)

theorem exact_neg (known : exact x = some a) : exact (-x) = some (-a) := by
  have negated := unpack_neg x
  obtain ⟨s, shape, rfl⟩ | ⟨s, m, q, positive, shape, -, rfl⟩ := cases_of_exact known
  · rw [shape] at negated
    rw [exact_of_zero negated, neg_zero]
  · rw [shape] at negated
    rw [exact_of_unpack negated, direction_neg, neg_mul]

theorem exact_magnitude (known : exact x = some a) : exact (Scalar.magnitude x) = some |a| := by
  have plain := unpack_abs x
  obtain ⟨s, shape, rfl⟩ | ⟨s, m, q, positive, shape, fits, rfl⟩ := cases_of_exact known
  · rw [shape] at plain
    rw [exact_of_zero (plain.trans (unpack_pack_zero .positive)), abs_zero]
  · have size : (0 : ℚ) ≤ m * 2 ^ q := mul_nonneg (Nat.cast_nonneg m) (unit_pos q).le
    rw [shape] at plain
    rw [exact_of_unpack (plain.trans (unpack_pack .positive positive fits)), abs_mul,
      abs_direction, abs_of_nonneg size]
    rfl

end Signs

section Results

/-- The double in whose neighbourhood a number lies is near to it. -/
theorem rounded_of_holds (long : 2 ^ 52 ≤ m) (positive : 0 < m)
    (holds : (Neighbourhood.ofBinary m q).holds |v| = true) (signed : v = direction s * |v|)
    (shape : x.toModel.unpack = .finite s m q positive) : Rounded v x := by
  have unit := unit_pos q
  obtain ⟨nearest, -⟩ := nearest_of_holds holds
  have upper := nearest.upper
  have lower := nearest.lower
  rw [div_le_iff₀ unit] at upper
  rw [le_div_iff₀ unit] at lower
  have digits : (2 : ℚ) ^ 52 ≤ m := by exact_mod_cast long
  have leading : 2 ^ q / 2 ≤ (m * 2 ^ q / 2 ^ 53 : ℚ) := by
    rw [div_le_div_iff₀ two_pos (by positivity)]
    nlinarith
  have factored : direction s * (m * 2 ^ q) - v = direction s * (m * 2 ^ q - |v|) := by
    rw [mul_sub, ← signed]
  refine ⟨_, exact_of_unpack shape, ?_⟩
  rw [factored, abs_mul, abs_mul, abs_direction, one_mul, one_mul,
    abs_of_nonneg (mul_nonneg (Nat.cast_nonneg m) unit.le), abs_le]
  constructor <;> linarith

theorem normalize_of_holds {M E : Int} (z : UnpackedFloat.Sign) (positive : 0 < m)
    (fits : Canonical m q) (some : M ≠ 0)
    (holds : (Neighbourhood.ofBinary m q).holds (|(M : ℚ)| * 2 ^ E) = true) :
    UnpackedFloat.normalize Format.binary64 M E z =
      .finite (if M < 0 then .negative else .positive) m q positive := by
  rw [← Int.cast_abs, Int.abs_eq_natAbs, Int.cast_natCast] at holds
  have rounded (sign : UnpackedFloat.Sign) : UnpackedFloat.round Format.binary64 sign M.natAbs E =
      .finite sign m q positive := lengthened_of_holds positive fits (Int.natAbs_pos.mpr some) holds
  unfold UnpackedFloat.normalize
  rcases lt_or_gt_of_ne some with below | above
  · have size : (-M).toNat = M.natAbs := by omega
    rw [Int.compare_eq_lt.mpr below, if_pos below, size]
    exact rounded .negative
  · have size : M.toNat = M.natAbs := by omega
    rw [Int.compare_eq_gt.mpr above, if_neg (by omega), size]
    exact rounded .positive

/-- A signed mantissa of any length is rounded. -/
theorem rounded_normalize {M E : Int} {z : UnpackedFloat.Sign} (normal : Normal v)
    (value : v = M * 2 ^ E) (shape : x.toModel.unpack =
      (pack (UnpackedFloat.normalize Format.binary64 M E z)).unpack) : Rounded v x := by
  obtain ⟨m, q, long, fits, holds⟩ := exists_holds normal.lower normal.upper
  have positive : 0 < m := (Nat.two_pow_pos 52).trans_le long
  have some : M ≠ 0 := by
    rintro rfl
    exact normal.ne_zero (by rw [value, Int.cast_zero, zero_mul])
  have size : |v| = |(M : ℚ)| * 2 ^ E := by rw [value, abs_mul, abs_of_pos (unit_pos E)]
  rw [normalize_of_holds z positive fits some (size ▸ holds), unpack_pack _ positive fits] at shape
  refine rounded_of_holds long positive holds ?_ shape
  rw [size, value, ← mul_assoc]
  congr 1
  split
  · next below =>
    have below : (M : ℚ) < 0 := by exact_mod_cast below
    rw [abs_of_neg below, direction, neg_one_mul, neg_neg]
  · next above =>
    have above : (0 : ℚ) ≤ M := by exact_mod_cast not_lt.mp above
    rw [abs_of_nonneg above, direction, one_mul]

end Results

section Operations

variable (left : exact x = some a) (right : exact y = some b)
include left right

theorem rounded_sub (normal : Normal (a - b)) : Rounded (a - b) (x - y) := by
  have result := unpack_sub x y
  obtain ⟨s, shape, rfl⟩ | ⟨s, m, p, positive, shape, fits, rfl⟩ := cases_of_exact left
  · obtain ⟨t, other, rfl⟩ | ⟨t, n, q, some, other, room, rfl⟩ := cases_of_exact right
    · exact absurd (sub_zero 0) normal.ne_zero
    · rw [shape, other] at result
      have negated := exact_of_unpack (result.trans (unpack_pack (-t) some room))
      rw [direction_neg, neg_mul, ← zero_sub] at negated
      exact rounded_exact negated
  · obtain ⟨t, other, rfl⟩ | ⟨t, n, q, some, other, room, rfl⟩ := cases_of_exact right
    · rw [shape, other] at result
      have same := exact_of_unpack (result.trans (unpack_pack s positive fits))
      rw [← sub_zero (direction s * _)] at same
      exact rounded_exact same
    · rw [shape, other] at result
      refine rounded_normalize normal ?_ result
      have scaled (k : Nat) (e : Int) (above : min p q ≤ e) :
          ((k <<< (e - min p q).toNat : Nat) : ℚ) * 2 ^ min p q = k * 2 ^ e := by
        obtain ⟨j, same⟩ := Int.eq_ofNat_of_zero_le (sub_nonneg.mpr above)
        rw [same, Int.toNat_natCast, Nat.shiftLeft_eq, Nat.cast_mul, Nat.cast_pow, mul_assoc,
          Nat.cast_ofNat, ← zpow_natCast, ← zpow_add₀ two_ne_zero, ← same, sub_add_cancel]
      rw [Int.cast_sub, cast_apply, cast_apply, Int.cast_natCast, Int.cast_natCast, sub_mul,
        mul_assoc, mul_assoc, scaled m p (min_le_left p q), scaled n q (min_le_right p q)]

omit left right in
theorem add_eq_sub_neg (x y : Float) : x + y = x - -y := by
  have sum : (x + y).toModel =
    pack (UnpackedFloat.add Format.binary64 x.toModel.unpack y.toModel.unpack) := rfl
  have difference : (x - -y).toModel =
    pack (UnpackedFloat.sub Format.binary64 x.toModel.unpack (-y).toModel.unpack) := rfl
  suffices same : (x + y).toModel = (x - -y).toModel from congrArg Float.ofModel same
  rw [sum, difference, unpack_neg]
  congr 1
  cases x.toModel.unpack with
  | notANumber => rfl
  | infinity s => cases y.toModel.unpack with
    | infinity t => cases s <;> cases t <;> rfl
    | _ => rfl
  | zero s => cases y.toModel.unpack with
    | infinity t => cases t <;> rfl
    | notANumber => rfl
    | zero t => cases s <;> cases t <;> rfl
    | finite t n q some => cases t <;> rfl
  | finite s m p positive => cases y.toModel.unpack with
    | infinity t => cases t <;> rfl
    | notANumber => rfl
    | zero t => rfl
    | finite t n q some =>
      refine congrArg (UnpackedFloat.normalize Format.binary64 · (min p q) .positive) ?_
      rw [apply_neg, sub_neg_eq_add]

theorem rounded_add (normal : Normal (a + b)) : Rounded (a + b) (x + y) := by
  rw [← sub_neg_eq_add] at normal ⊢
  rw [add_eq_sub_neg]
  exact rounded_sub left (exact_neg right) normal

theorem rounded_div (normal : Normal (a / b)) : Rounded (a / b) (x / y) := by
  have result := unpack_div x y
  obtain ⟨s, shape, rfl⟩ | ⟨s, m₁, e₁, positive, shape, fits, rfl⟩ := cases_of_exact left
  · exact absurd (zero_div b) normal.ne_zero
  · obtain ⟨t, other, rfl⟩ | ⟨t, m₂, e₂, some, other, room, rfl⟩ := cases_of_exact right
    · exact absurd (div_zero _) normal.ne_zero
    · obtain ⟨m, q, long, narrow, holds⟩ := exists_holds normal.lower normal.upper
      have above : 0 < m := (Nat.two_pow_pos 52).trans_le long
      have dividend : (0 : ℚ) ≤ m₁ * 2 ^ e₁ := mul_nonneg (Nat.cast_nonneg m₁) (unit_pos e₁).le
      have divisor : (0 : ℚ) ≤ m₂ * 2 ^ e₂ := mul_nonneg (Nat.cast_nonneg m₂) (unit_pos e₂).le
      have size : |direction s * (m₁ * 2 ^ e₁) / (direction t * (m₂ * 2 ^ e₂))| =
          m₁ * 2 ^ e₁ / (m₂ * 2 ^ e₂) := by
        rw [abs_div, abs_mul, abs_direction, abs_of_nonneg dividend, abs_mul, abs_direction,
          abs_of_nonneg divisor, one_mul, one_mul]
      rw [shape, other, div_of_holds above narrow (size ▸ holds), unpack_pack _ above narrow]
        at result
      refine rounded_of_holds long above holds ?_ result
      rw [size, direction_div, div_mul_div_comm]

end Operations

end MatrixCalculator.Double
