import MatrixCalculator.Proofs.Double.Neighbourhood

/-! Whole numbers as doubles. One that is the value of a double is converted exactly, and every
positive one that is no larger than the largest double to a positive double; the whole part of a
double is a double. -/
namespace MatrixCalculator.Double

open Float.Model MatrixCalculator.Decimal

variable {k m : Nat} {q : Int} {v : ℚ}

theorem ofNat_of_holds (some : 0 < m) (fits : Canonical m q)
    (holds : (Neighbourhood.ofBinary m q).holds k = true) :
    Float.ofNat k = .ofModel (pack (.finite .positive m q some)) := by
  refine nearestDouble_of_holds (E := 0) some fits ?_
  rwa [zpow_zero, mul_one]

theorem unpack_ofNat (some : 0 < k) (bounded : k ≤ largest) :
    ∃ m q positive, (Float.ofNat k).toModel.unpack = .finite .positive m q positive := by
  have normal : (2 : ℚ) ^ (-1022 : ℤ) ≤ k :=
    (zpow_le_one_of_nonpos₀ one_le_two (by decide)).trans (by exact_mod_cast some)
  obtain ⟨m, q, long, fits, holds⟩ := exists_holds normal (by exact_mod_cast bounded)
  have positive : 0 < m := (Nat.two_pow_pos 52).trans_le long
  refine ⟨m, q, positive, ?_⟩
  rw [ofNat_of_holds positive fits holds]
  exact unpack_pack .positive positive fits

theorem exact_ofNat (some : 0 < m) (fits : Canonical m q) (value : (k : ℚ) = m * 2 ^ q) :
    exact (Float.ofNat k) = Option.some (k : ℚ) := by
  have holds : (Neighbourhood.ofBinary m q).holds k = true := value ▸ holds_centre m q
  have shape : (Float.ofNat k).toModel.unpack = .finite .positive m q some := by
    rw [ofNat_of_holds some fits holds]
    exact unpack_pack .positive some fits
  unfold exact
  rw [shape]
  dsimp only
  rw [power_eq, value]
  rfl

theorem exact_ofNat_of_short (short : k < 2 ^ 53) : exact (Float.ofNat k) = some (k : ℚ) := by
  rcases Nat.eq_zero_or_pos k with rfl | some
  · rfl
  · have digits : k.log2 < 53 := (Nat.log2_lt some.ne').mpr short
    exact exact_ofNat (pos_wholeMantissa some) (canonical_whole some (by omega))
      (toFloat_eq some short).1

theorem exists_exact_floor {x : Float} (known : exact x = some v) (nonneg : 0 ≤ v) :
    ∃ whole, exact whole = some (⌊v⌋ : ℚ) := by
  obtain ⟨_, -, rfl⟩ | ⟨m, q, positive, -, fits, value⟩ | ⟨m, q, positive, -, -, rfl⟩ :=
    shape_of_exact known
  · exact ⟨x, by rw [known, Int.floor_zero, Int.cast_zero]⟩
  · rcases Int.le_total 0 q with whole | fraction
    · obtain ⟨t, rfl⟩ := Int.eq_ofNat_of_zero_le whole
      have integral : v = ((m * 2 ^ t : Nat) : ℚ) := by
        rw [value, zpow_natCast]
        push_cast
        rfl
      refine ⟨x, ?_⟩
      rw [known, integral, Int.floor_natCast, Int.cast_natCast]
    · have unit : (2 : ℚ) ^ q ≤ 1 := zpow_le_one_of_nonpos₀ one_le_two fraction
      have digits : (m : ℚ) < 2 ^ 53 := by exact_mod_cast fits.mantissa
      have small : v < 2 ^ 53 := by
        rw [value]
        exact (mul_le_of_le_one_right (Nat.cast_nonneg m) unit).trans_lt digits
      have short : ⌊v⌋₊ < 2 ^ 53 := (Nat.floor_lt nonneg).mpr (by exact_mod_cast small)
      refine ⟨_, (exact_ofNat_of_short short).trans ?_⟩
      rw [← natCast_floor_eq_intCast_floor nonneg]
  · have size : (0 : ℚ) < m * 2 ^ q := mul_pos (by exact_mod_cast positive) (unit_pos q)
    exact absurd nonneg (not_le.mpr (neg_neg_of_pos size))

end MatrixCalculator.Double
