import MatrixCalculator.Decimal.Literal
import MatrixCalculator.Proofs.Double.Rounding
import Mathlib.Tactic.IntervalCases

/-! Reading decimal numbers. Both ways of reading end in one rounded product or quotient: a short
number is multiplied or divided by a power of ten that is a double, a long one by the exact power.
So a number that lies in the neighbourhood of a double is read as this double. -/
namespace MatrixCalculator.Double

open Float.Model Float.Model.UnpackedFloat MatrixCalculator.Decimal

variable {m : Nat} {q : Int} {v : ℚ} {s₁ s₂ : Sign} {m₁ m₂ : Nat} {e₁ e₂ : Int} {p₁ : 0 < m₁}
  {p₂ : 0 < m₂}

/-- A number is rounded to the double in whose neighbourhood it lies, also if its mantissa has to be
lengthened. -/
theorem lengthened_of_holds {sign : Sign} {M : Nat} {E : Int} (positive : 0 < m)
    (fits : Canonical m q) (some : 0 < M)
    (holds : (Neighbourhood.ofBinary m q).holds (M * 2 ^ E) = true) :
    UnpackedFloat.round Format.binary64 sign M E = .finite sign m q positive := by
  let shift := (E - target M E).toNat
  have stands : Approximates (.ofMantissaAndAccuracy (M <<< shift) .exact)
      (M * 2 ^ E / 2 ^ (E - shift)) := by
    have exact : (M * 2 ^ E / 2 ^ (E - shift) : ℚ) = (M <<< shift : Nat) := by
      rw [div_eq_iff (unit_pos _).ne', Nat.shiftLeft_eq, zpow_sub₀ two_ne_zero, zpow_natCast]
      push_cast
      field_simp
    rw [exact]
    exact approximates_exact _
  have placed : E - shift ≤ target (M <<< shift) (E - shift) := by
    have exponent := target_eq M E
    have lengthened := target_eq (M <<< shift) (E - shift)
    have digits : M.log2 + shift ≤ (M <<< shift).log2 := by
      rw [Nat.shiftLeft_eq, Nat.le_log2 (Nat.mul_pos some (Nat.two_pow_pos _)).ne', Nat.pow_add]
      exact Nat.mul_le_mul_right _ (Nat.log2_self_le some.ne')
    omega
  exact round_of_holds positive fits holds stands placed

/-- A product of enough digits is rounded to the double in whose neighbourhood it lies. -/
theorem mul_of_holds (positive : 0 < m) (fits : Canonical m q) (long : 2 ^ 52 ≤ m₁ * m₂)
    (holds : (Neighbourhood.ofBinary m q).holds (m₁ * 2 ^ e₁ * (m₂ * 2 ^ e₂)) = true) :
    mul Format.binary64 (.finite s₁ m₁ e₁ p₁) (.finite s₂ m₂ e₂ p₂) =
      .finite (s₁ * s₂) m q positive := by
  have stands : Approximates (.ofMantissaAndAccuracy (m₁ * m₂) .exact)
      (m₁ * 2 ^ e₁ * (m₂ * 2 ^ e₂) / 2 ^ (e₁ + e₂)) := by
    have exact : (m₁ * 2 ^ e₁ * (m₂ * 2 ^ e₂) / 2 ^ (e₁ + e₂) : ℚ) = (m₁ * m₂ : Nat) := by
      rw [div_eq_iff (unit_pos _).ne', zpow_add₀ two_ne_zero]
      push_cast
      ring
    rw [exact]
    exact approximates_exact _
  have digits : 52 ≤ (m₁ * m₂).log2 := (Nat.le_log2 (Nat.mul_pos p₁ p₂).ne').mpr long
  have exponent := target_eq (m₁ * m₂) (e₁ + e₂)
  exact round_of_holds positive fits holds stands (by omega)

/-- A quotient is rounded to the double in whose neighbourhood it lies. -/
theorem div_of_holds (positive : 0 < m) (fits : Canonical m q)
    (holds : (Neighbourhood.ofBinary m q).holds (m₁ * 2 ^ e₁ / (m₂ * 2 ^ e₂)) = true) :
    div Format.binary64 (.finite s₁ m₁ e₁ p₁) (.finite s₂ m₂ e₂ p₂) =
      .finite (s₁ / s₂) m q positive := by
  let T := min (e₁ - e₂)
    (Format.binary64.targetExponent (totalExponent m₁ e₁ - totalExponent m₂ e₂))
  let shift := (e₁ - e₂ - T).toNat
  have aimed : T = min (e₁ - e₂) (max (m₁.log2 + e₁ - (m₂.log2 + e₂) - 53) (-1074)) := by
    simp only [T, targetExponent_eq, totalExponent]
    omega
  have shifted : (shift : Int) = e₁ - e₂ - T := by omega
  have quotient : (m₁ * 2 ^ e₁ / (m₂ * 2 ^ e₂) / 2 ^ T : ℚ) = (m₁ <<< shift : Nat) / m₂ := by
    have some : (m₂ : ℚ) ≠ 0 := Nat.cast_ne_zero.mpr p₂.ne'
    have split : e₁ = shift + e₂ + T := by omega
    rw [split, zpow_add₀ two_ne_zero, zpow_add₀ two_ne_zero, zpow_natCast, Nat.shiftLeft_eq,
      Nat.cast_mul, Nat.cast_pow, Nat.cast_ofNat]
    have := unit_pos e₂
    have := unit_pos T
    field_simp
  have stands : Approximates (.ofMantissaAndAccuracy (m₁ <<< shift / m₂)
      (accuracyOfFraction (m₁ <<< shift % m₂) m₂)) (m₁ * 2 ^ e₁ / (m₂ * 2 ^ e₂) / 2 ^ T) := by
    rw [quotient]
    exact approximates_quotient _ p₂
  have placed : T ≤ target (m₁ <<< shift / m₂) T := by
    have exponent := target_eq (m₁ <<< shift / m₂) T
    rcases le_or_gt T (-1074) with least | above
    · omega
    · -- The shift has been chosen so that the quotient has 53 digits.
      have enough : m₂.log2 + 53 ≤ m₁.log2 + shift := by omega
      have long : 2 ^ 52 ≤ m₁ <<< shift / m₂ := by
        rw [Nat.le_div_iff_mul_le p₂, Nat.shiftLeft_eq]
        calc 2 ^ 52 * m₂ ≤ 2 ^ 52 * 2 ^ (m₂.log2 + 1) :=
              Nat.mul_le_mul_left _ Nat.lt_log2_self.le
          _ = 2 ^ (m₂.log2 + 53) := by rw [← Nat.pow_add]; congr 1; omega
          _ ≤ 2 ^ (m₁.log2 + shift) := Nat.pow_le_pow_right (by decide) enough
          _ ≤ m₁ * 2 ^ shift := by
            rw [Nat.pow_add]
            exact Nat.mul_le_mul_right _ (Nat.log2_self_le p₁.ne')
      have digits : 52 ≤ (m₁ <<< shift / m₂).log2 :=
        (Nat.le_log2 (by omega)).mpr long
      omega
  exact round_of_holds positive fits holds stands placed

section Exact

variable {D : Nat} {E : Int}

theorem pos_of_holds (positive : 0 < m)
    (holds : (Neighbourhood.ofBinary m q).holds (D * 10 ^ E) = true) : 0 < D := by
  rcases Nat.eq_zero_or_pos D with rfl | some
  · rw [Nat.cast_zero, zero_mul] at holds
    have lower := (nearest_of_holds holds).1.two_pow_le positive
    exact absurd lower (not_le.mpr (unit_pos _))
  · exact some

theorem two_pow_le_ten_pow (k : Nat) : (2 : ℚ) ^ k ≤ 10 ^ k :=
  pow_le_pow_left₀ (by norm_num) (by norm_num) k

/-- The exponent of a number in the neighbourhood of a double is not large. -/
theorem exponent_le (positive : 0 < m) (fits : Canonical m q)
    (holds : (Neighbourhood.ofBinary m q).holds (D * 10 ^ E) = true) : E ≤ 1024 := by
  by_contra large
  obtain ⟨k, same⟩ := Int.eq_ofNat_of_zero_le (show 0 ≤ E by omega)
  subst same
  have some : (1 : ℚ) ≤ D := by exact_mod_cast pos_of_holds positive holds
  have above : (2 : ℚ) ^ (k : Int) ≤ D * 10 ^ (k : Int) := by
    rw [zpow_natCast, zpow_natCast]
    nlinarith [two_pow_le_ten_pow k, pow_pos (show (0 : ℚ) < 10 by norm_num) k]
  have exponents := (zpow_lt_zpow_iff_right₀ one_lt_two).mp
    (above.trans_lt ((nearest_of_holds holds).1.lt_two_pow fits))
  have upper := fits.upper
  omega

/-- The exponent of a number in the neighbourhood of a double outweighs its digits by little. -/
theorem le_exponent (positive : 0 < m) (fits : Canonical m q)
    (holds : (Neighbourhood.ofBinary m q).holds (D * 10 ^ E) = true) :
    -(1076 + D.log2 : Int) ≤ E := by
  by_contra small
  obtain ⟨k, same⟩ := Int.eq_ofNat_of_zero_le (show 0 ≤ -E by omega)
  obtain rfl : E = -k := by omega
  have digits : (D : ℚ) ≤ 2 ^ (D.log2 + 1) := by exact_mod_cast Nat.lt_log2_self.le
  have below : (D : ℚ) * 10 ^ (-k : Int) ≤ 2 ^ ((D.log2 : Int) + 1 - k) := by
    rw [zpow_sub₀ two_ne_zero, zpow_neg, ← div_eq_mul_inv]
    refine div_le_div₀ (unit_pos _).le ?_ (unit_pos _) ?_
    · exact_mod_cast digits
    · exact_mod_cast two_pow_le_ten_pow k
  have exponents := (zpow_le_zpow_iff_right₀ one_lt_two).mp
    (((nearest_of_holds holds).1.two_pow_le positive).trans below)
  have lower := fits.lower
  omega

/-- A product or quotient with the exact power of ten is rounded as it should be. -/
theorem ofScientific_of_holds (positive : 0 < m) (fits : Canonical m q)
    (holds : (Neighbourhood.ofBinary m q).holds (D * 10 ^ E) = true) :
    UnpackedFloat.ofScientific Format.binary64 D E = .finite .positive m q positive := by
  have some := pos_of_holds positive holds
  have large := exponent_le positive fits holds
  have small := le_exponent positive fits holds
  unfold UnpackedFloat.ofScientific
  rw [dif_neg some.ne', if_neg (by norm_num; omega), if_neg (by norm_num; omega)]
  by_cases whole : 0 ≤ E
  · rw [if_pos whole]
    obtain ⟨k, rfl⟩ := Int.eq_ofNat_of_zero_le whole
    have digits : Format.binary64.mantissaBits = 53 := rfl
    refine mul_of_holds positive fits ?_ ?_
    · rw [digits, Nat.shiftLeft_eq]
      have power : 0 < 10 ^ (k : Int).toNat := Nat.pow_pos (by decide)
      nlinarith
    · convert holds using 2
      rw [digits, Nat.shiftLeft_eq]
      have cancel : (2 : ℚ) ^ 53 * 2 ^ (-(53 : Nat) : Int) = 1 := by norm_num
      rw [Nat.cast_mul, Nat.cast_pow, Nat.cast_pow, Nat.cast_ofNat, mul_assoc (D : ℚ), cancel,
        zpow_zero, mul_one, mul_one, Int.toNat_natCast, zpow_natCast, Nat.cast_ofNat]
  · rw [if_neg whole]
    obtain ⟨k, same⟩ := Int.eq_ofNat_of_zero_le (show 0 ≤ -E by omega)
    obtain rfl : E = -k := by omega
    refine div_of_holds positive fits ?_
    convert holds using 2
    push_cast
    rw [mul_one, mul_one, neg_neg, Int.toNat_natCast, zpow_neg, zpow_natCast,
      div_eq_mul_inv]

end Exact

section Short

variable {n : Nat}

/-- The mantissa of a whole number with 53 digits. -/
def wholeMantissa (n : Nat) : Nat :=
  n * 2 ^ 52 / 2 ^ n.log2

def wholeExponent (n : Nat) : Int :=
  n.log2 - 52

theorem le_wholeMantissa (some : 0 < n) : 2 ^ 52 ≤ wholeMantissa n := by
  rw [wholeMantissa, Nat.le_div_iff_mul_le (Nat.two_pow_pos _), Nat.mul_comm]
  exact Nat.mul_le_mul_right _ (Nat.log2_self_le some.ne')

theorem wholeMantissa_lt (n : Nat) : wholeMantissa n < 2 ^ 53 := by
  rw [wholeMantissa, Nat.div_lt_iff_lt_mul (Nat.two_pow_pos _)]
  have digits := Nat.lt_log2_self (n := n)
  rw [Nat.pow_succ] at digits
  omega

theorem cast_whole (exact : wholeMantissa n * 2 ^ n.log2 = n * 2 ^ 52) :
    (n : ℚ) = wholeMantissa n * 2 ^ wholeExponent n := by
  have cast : (wholeMantissa n * 2 ^ n.log2 : ℚ) = n * 2 ^ 52 := by exact_mod_cast exact
  have split : (2 : ℚ) ^ wholeExponent n = 2 ^ n.log2 / 2 ^ 52 := by
    rw [wholeExponent, zpow_sub₀ two_ne_zero, zpow_natCast]
    norm_num
  rw [split, ← mul_div_assoc, cast, mul_div_cancel_right₀ _ (by norm_num)]

theorem canonical_whole (some : 0 < n) (short : n.log2 ≤ 1000) :
    Canonical (wholeMantissa n) (wholeExponent n) := by
  refine ⟨wholeMantissa_lt n, ?_, ?_, .inl (le_wholeMantissa some)⟩ <;>
    · rw [wholeExponent]
      omega

theorem pos_wholeMantissa (some : 0 < n) : 0 < wholeMantissa n :=
  Nat.lt_of_lt_of_le (Nat.two_pow_pos 52) (le_wholeMantissa some)

theorem compare_zero (some : 0 < n) : compare (n : Int) 0 = .gt := by
  rw [Int.compare_eq_gt]
  exact_mod_cast some

/-- A whole number of at most 53 digits is converted exactly. -/
theorem toFloat_eq (some : 0 < n) (short : n < 2 ^ 53) :
    (n : ℚ) = wholeMantissa n * 2 ^ wholeExponent n ∧ n.toUInt64.toFloat =
      .ofModel (pack (.finite .positive (wholeMantissa n) (wholeExponent n)
        (pos_wholeMantissa some))) := by
  have digits : n.log2 < 53 := (Nat.log2_lt some.ne').mpr short
  have exact : wholeMantissa n * 2 ^ n.log2 = n * 2 ^ 52 := by
    refine Nat.div_mul_cancel (Nat.dvd_mul_left_of_dvd ?_ n)
    exact Nat.pow_dvd_pow 2 (by omega)
  have value := cast_whole exact
  have same : n.toUInt64.toNat = n := by
    rw [UInt64.toNat_ofNat', Nat.mod_eq_of_lt (short.trans (by decide))]
  refine ⟨value, congrArg (Float.ofModel ∘ pack) ?_⟩
  change UnpackedFloat.normalize Format.binary64 (n.toUInt64.toNat : Int) 0 .positive = _
  rw [same, UnpackedFloat.normalize, compare_zero some]
  refine lengthened_of_holds _ (canonical_whole some (by omega)) some ?_
  rw [zpow_zero, mul_one, Int.toNat_natCast, value]
  exact holds_centre _ _

def powerOfTen (e : Nat) : Float :=
  .ofModel (pack (.finite .positive (wholeMantissa (10 ^ e)) (wholeExponent (10 ^ e))
    (pos_wholeMantissa (Nat.pow_pos (by decide)))))

theorem powerOfTen_eq {e : Nat} (short : e ≤ 22) :
    (10 : ℚ) ^ e = wholeMantissa (10 ^ e) * 2 ^ wholeExponent (10 ^ e) := by
  have exact : ∀ e < 23, wholeMantissa (10 ^ e) * 2 ^ (10 ^ e).log2 = 10 ^ e * 2 ^ 52 := by decide
  exact_mod_cast cast_whole (exact e (by omega))

theorem exactlyRepresentablePowersOfTen_eq {e : Nat}
    (inside : e < Float.exactlyRepresentablePowersOfTen.size) :
    Float.exactlyRepresentablePowersOfTen[e] = powerOfTen e := by
  have table : ∀ e < 23, Float.exactlyRepresentablePowersOfTen[e]? = some (powerOfTen e) := by
    decide
  exact (Array.getElem?_eq_some_iff.mp (table e inside)).2

theorem unpack_powerOfTen {e : Nat} (short : e ≤ 22) : (powerOfTen e).toModel.unpack =
    .finite .positive (wholeMantissa (10 ^ e)) (wholeExponent (10 ^ e))
      (pos_wholeMantissa (Nat.pow_pos (by decide))) := by
  have digits : ∀ e < 23, (10 ^ e).log2 ≤ 1000 := by decide
  exact unpack_pack _ _ (canonical_whole (Nat.pow_pos (by decide)) (digits e (by omega)))

/-- A short number is multiplied or divided by a power of ten that is a double. -/
theorem fast_of_holds {E : Int} (positive : 0 < m) (fits : Canonical m q) (digits : n < 2 ^ 53)
    (power : E.natAbs ≤ 22)
    (holds : (Neighbourhood.ofBinary m q).holds (n * 10 ^ E) = true) :
    (if E < 0 then n.toUInt64.toFloat / powerOfTen E.natAbs
      else n.toUInt64.toFloat * powerOfTen E.natAbs) =
        .ofModel (pack (.finite .positive m q positive)) := by
  have some := pos_of_holds positive holds
  obtain ⟨value, converted⟩ := toFloat_eq some digits
  have bits : n.log2 < 53 := (Nat.log2_lt some.ne').mpr digits
  have unpacked : n.toUInt64.toFloat.toModel.unpack = .finite .positive (wholeMantissa n)
      (wholeExponent n) (pos_wholeMantissa some) := by
    rw [converted]
    exact unpack_pack _ _ (canonical_whole some (by omega))
  have scale := powerOfTen_eq power
  by_cases fraction : E < 0
  · rw [if_pos fraction]
    have exponent : E = -(E.natAbs : Int) := by omega
    rw [exponent, zpow_neg, zpow_natCast, ← div_eq_mul_inv, value, scale] at holds
    refine congrArg (Float.ofModel ∘ pack) ?_
    rw [unpacked, unpack_powerOfTen power]
    exact div_of_holds positive fits holds
  · rw [if_neg fraction]
    have exponent : E = (E.natAbs : Int) := by omega
    rw [exponent, zpow_natCast, value, scale] at holds
    refine congrArg (Float.ofModel ∘ pack) ?_
    rw [unpacked, unpack_powerOfTen power]
    refine mul_of_holds positive fits (Nat.le_trans (le_wholeMantissa some) ?_) holds
    exact Nat.le_mul_of_pos_right _ (pos_wholeMantissa (Nat.pow_pos (by decide)))

end Short

/-- A decimal number in the neighbourhood of a positive double is read as this double. -/
theorem nearestDouble_of_holds {D : Nat} {E : Int} (positive : 0 < m) (fits : Canonical m q)
    (holds : (Neighbourhood.ofBinary m q).holds (D * 10 ^ E) = true) :
    nearestDouble D E = .ofModel (pack (.finite .positive m q positive)) := by
  have fast (digits : D < 2 ^ 53) (power : E.natAbs ≤ 22) :=
    fast_of_holds positive fits digits power holds
  have slow := congrArg (Float.ofModel ∘ pack) (ofScientific_of_holds positive fits holds)
  dsimp only [Function.comp_apply] at slow
  generalize Float.ofModel (pack (.finite .positive m q positive)) = x at fast slow ⊢
  unfold nearestDouble Float.ofScientific
  split
  · next short =>
    simp only [exactlyRepresentablePowersOfTen_eq]
    have read := fast short.1 short.2
    by_cases fraction : E < 0
    · rw [if_pos fraction] at read
      rw [if_pos (decide_eq_true fraction)]
      exact read
    · rw [if_neg fraction] at read
      rw [if_neg (by simpa using fraction)]
      exact read
  · have exponent : (if decide (E < 0) = true then Int.negOfNat E.natAbs
        else Int.ofNat E.natAbs) = E := by
      rw [Int.negOfNat_eq, Int.ofNat_eq_natCast]
      by_cases fraction : E < 0
      · rw [if_pos (decide_eq_true fraction)]
        omega
      · rw [if_neg (by simpa using fraction)]
        omega
    dsimp only
    rw [exponent]
    exact slow

end MatrixCalculator.Double
