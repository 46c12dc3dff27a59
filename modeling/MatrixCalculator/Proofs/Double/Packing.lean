import MatrixCalculator.Double
import Mathlib.Algebra.Group.Nat.Defs

/-! Doubles as bits. The parts of a double make it an infinity, a NaN, a zero or a number with a
mantissa and an exponent, and every double is packed into the bits that it is unpacked from. -/
namespace MatrixCalculator.Double

open Float.Model

/-- Mantissa and exponent of a finite double: 53 digits, or fewer with the least exponent. -/
structure Canonical (m : Nat) (q : Int) : Prop where
  mantissa : m < 2 ^ 53
  lower : -1074 ≤ q
  upper : q ≤ 971
  normal : 2 ^ 52 ≤ m ∨ q = -1074

structure Parts (bits : BitVec 64) (sign : UnpackedFloat.Sign) (exponent : BitVec 11)
    (mantissa : BitVec 52) : Prop where
  sign : UnpackedFloat.Sign.ofBitVec (@UnpackedFloat.unpackSign Format.binary64 bits) = sign
  exponent : @UnpackedFloat.unpackExponent Format.binary64 bits = exponent
  mantissa : @UnpackedFloat.unpackMantissa Format.binary64 bits = mantissa

variable {bits : BitVec 64} {sign : UnpackedFloat.Sign} {exponent : BitVec 11}
  {mantissa : BitVec 52} {m : Nat} {q : Int}

/-- The proof that the mantissa is positive follows the mantissa. -/
theorem finite_congr {m' : Nat} {q' : Int} (positive : 0 < m) (mantissa : m = m')
    (exponent : q = q') : UnpackedFloat.finite sign m q positive =
      .finite sign m' q' (mantissa ▸ positive) := by
  subst mantissa exponent
  rfl

section Parts

theorem unpackSign_packComponents (sign : UnpackedFloat.Sign) (exponent : BitVec 11)
    (mantissa : BitVec 52) :
    @UnpackedFloat.unpackSign Format.binary64
      (UnpackedFloat.packComponents Format.binary64 sign exponent mantissa) = sign.toBitVec := by
  change BitVec.extractLsb' 63 1 ((sign.toBitVec ++ exponent) ++ mantissa) = sign.toBitVec
  rw [BitVec.extractLsb'_append_eq_of_le (by decide),
    BitVec.extractLsb'_append_eq_of_le (by decide)]
  exact BitVec.extractLsb'_eq_self

theorem parts_packComponents (sign : UnpackedFloat.Sign) (exponent : BitVec 11)
    (mantissa : BitVec 52) :
    Parts (UnpackedFloat.packComponents Format.binary64 sign exponent mantissa)
      sign exponent mantissa := by
  refine ⟨?_, UnpackedFloat.unpackExponent_packComponents,
    UnpackedFloat.unpackMantissa_packComponents⟩
  rw [unpackSign_packComponents]
  cases sign <;> rfl

theorem append_extracted (bits : BitVec 64) :
    (BitVec.extractLsb' 63 1 bits ++ BitVec.extractLsb' 52 11 bits) ++
      BitVec.extractLsb' 0 52 bits = bits := by
  rw [BitVec.extractLsb'_append_extractLsb'_eq_extractLsb' (by decide)]
  change BitVec.extractLsb' 52 12 bits ++ BitVec.extractLsb' 0 52 bits = bits
  rw [BitVec.extractLsb'_append_extractLsb'_eq_extractLsb' (by decide)]
  exact BitVec.extractLsb'_eq_self

theorem Parts.packComponents (parts : Parts bits sign exponent mantissa) :
    UnpackedFloat.packComponents Format.binary64 sign exponent mantissa = bits := by
  obtain ⟨rfl, rfl, rfl⟩ := parts
  have sign (b : BitVec 1) : (UnpackedFloat.Sign.ofBitVec b).toBitVec = b := by
    revert b
    decide
  rw [UnpackedFloat.packComponents, sign]
  exact append_extracted bits

theorem toNat_append_one (mantissa : BitVec 52) :
    (1#1 ++ mantissa).toNat = 2 ^ 52 + mantissa.toNat := by
  rw [BitVec.toNat_append, ← Nat.shiftLeft_add_eq_or_of_lt mantissa.isLt]
  rfl

theorem toNat_ne {width n : Nat} {part : BitVec width} (other : part ≠ BitVec.ofNat width n)
    (small : n < 2 ^ width) : part.toNat ≠ n := fun same =>
  other (BitVec.eq_of_toNat_eq (by rw [same, BitVec.toNat_ofNat, Nat.mod_eq_of_lt small]))

/-- What its parts make a double. -/
theorem Parts.unpack_cases (parts : Parts bits sign exponent mantissa) :
    let unpacked := UnpackedFloat.unpack Format.binary64 bits
    (exponent = -1#11 ∧ mantissa = 0#52 ∧ unpacked = .infinity sign) ∨
    (exponent = -1#11 ∧ mantissa ≠ 0#52 ∧ unpacked = .notANumber) ∨
    (exponent = 0#11 ∧ mantissa = 0#52 ∧ unpacked = .zero sign) ∨
    (exponent = 0#11 ∧ ∃ positive, unpacked = .finite sign mantissa.toNat (-1074) positive) ∨
    (exponent.toNat ≠ 0 ∧ exponent.toNat < 2047 ∧ ∃ positive, unpacked =
      .finite sign (2 ^ 52 + mantissa.toNat) (exponent.toNat - 1075) positive) := by
  intro unpacked
  have unfolded : unpacked = UnpackedFloat.unpack Format.binary64 bits := rfl
  have bound : exponent.toNat < 2 ^ 11 := exponent.isLt
  unfold UnpackedFloat.unpack at unfolded
  dsimp only at unfolded
  obtain ⟨rfl, rfl, rfl⟩ := parts
  by_cases special : @UnpackedFloat.unpackExponent Format.binary64 bits = -1#11
  · rw [if_pos special] at unfolded
    by_cases empty : @UnpackedFloat.unpackMantissa Format.binary64 bits = 0#52
    · rw [if_pos empty] at unfolded
      exact .inl ⟨special, empty, unfolded⟩
    · rw [if_neg empty] at unfolded
      exact .inr (.inl ⟨special, empty, unfolded⟩)
  rw [if_neg special] at unfolded
  by_cases least : @UnpackedFloat.unpackExponent Format.binary64 bits = 0#11
  · rw [if_pos least] at unfolded
    by_cases empty : @UnpackedFloat.unpackMantissa Format.binary64 bits = 0#52
    · rw [dif_pos empty] at unfolded
      exact .inr (.inr (.inl ⟨least, empty, unfolded⟩))
    · rw [dif_neg empty] at unfolded
      have positive := Nat.pos_of_ne_zero (toNat_ne empty (by decide))
      refine .inr (.inr (.inr (.inl ⟨least, positive, unfolded.trans ?_⟩)))
      rw [least]
      rfl
  · rw [if_neg least] at unfolded
    have greatest := toNat_ne (n := 2047) special (by decide)
    refine .inr (.inr (.inr (.inr ⟨toNat_ne least (by decide), by omega, ?_⟩)))
    exact ⟨Nat.add_pos_left (Nat.two_pow_pos 52) _,
      unfolded.trans (finite_congr _ (toNat_append_one _) rfl)⟩

theorem parts_of_bits (bits : BitVec 64) : ∃ sign exponent mantissa,
    Parts bits sign exponent mantissa :=
  ⟨_, _, _, rfl, rfl, rfl⟩

end Parts

theorem canonical_of_unpack {x : Float.Model} {positive : 0 < m}
    (shape : x.unpack = .finite sign m q positive) : Canonical m q := by
  obtain ⟨_, exponent, mantissa, parts⟩ := parts_of_bits x.toBits.toBitVec
  have small : mantissa.toNat < 2 ^ 52 := mantissa.isLt
  change UnpackedFloat.unpack Format.binary64 x.toBits.toBitVec = _ at shape
  obtain ⟨-, -, same⟩ | ⟨-, -, same⟩ | ⟨-, -, same⟩ | ⟨-, _, same⟩ | ⟨least, greatest, _, same⟩ :=
    parts.unpack_cases
  · cases shape.symm.trans same
  · cases shape.symm.trans same
  · cases shape.symm.trans same
  · cases shape.symm.trans same
    exact ⟨by omega, by decide, by decide, .inr rfl⟩
  · cases shape.symm.trans same
    exact ⟨by omega, by omega, by omega, .inl (Nat.le_add_right _ _)⟩

theorem pack_subnormal (sign : UnpackedFloat.Sign) (positive : 0 < m) (small : m < 2 ^ 52) :
    UnpackedFloat.pack Format.binary64 (.finite sign m (-1074) positive) =
      UnpackedFloat.packComponents Format.binary64 sign 0#11 (BitVec.ofNat 52 m) := by
  have digits : m.log2 < 52 := (Nat.log2_lt (Nat.ne_of_gt positive)).mpr small
  have short : m.log2 + 1 ≠ Format.binary64.mantissaBits := by
    change _ ≠ 1 + 52
    omega
  unfold UnpackedFloat.pack
  dsimp only
  rw [if_neg (by decide), if_neg short]

theorem pack_normal (sign : UnpackedFloat.Sign) (positive : 0 < m) (large : 2 ^ 52 ≤ m)
    (fits : Canonical m q) :
    UnpackedFloat.pack Format.binary64 (.finite sign m q positive) =
      UnpackedFloat.packComponents Format.binary64 sign (BitVec.ofNat 11 (q + 1075).toNat)
        (BitVec.ofNat 52 m) := by
  have long : m.log2 + 1 = Format.binary64.mantissaBits := by
    rw [(Nat.log2_eq_iff (Nat.ne_of_gt positive)).mpr ⟨large, fits.mantissa⟩]
    rfl
  have biased : q + Format.binary64.exponentBias + Format.binary64.mantissaBitsWithoutImplicit =
      q + 1075 := by
    change q + 1023 + 52 = _
    omega
  have upper := fits.upper
  unfold UnpackedFloat.pack
  dsimp only
  rw [biased, if_neg (by omega), if_pos long]

theorem unpack_pack_eq (unpacked : UnpackedFloat) : (pack unpacked).unpack =
    UnpackedFloat.unpack Format.binary64 (UnpackedFloat.pack Format.binary64 unpacked) :=
  rfl

/-- A finite double is unpacked from the bits that it has been packed into. -/
theorem unpack_pack (sign : UnpackedFloat.Sign) (positive : 0 < m) (fits : Canonical m q) :
    (pack (.finite sign m q positive)).unpack = .finite sign m q positive := by
  rw [unpack_pack_eq]
  rcases Nat.lt_or_ge m (2 ^ 52) with small | large
  · obtain rfl : q = -1074 := fits.normal.resolve_left (Nat.not_le.mpr small)
    rw [pack_subnormal sign positive small]
    have carried : (BitVec.ofNat 52 m).toNat = m := by
      rw [BitVec.toNat_ofNat, Nat.mod_eq_of_lt small]
    obtain ⟨special, -⟩ | ⟨special, -⟩ | ⟨-, empty, -⟩ | ⟨-, _, same⟩ | ⟨least, -⟩ :=
      (parts_packComponents sign 0#11 (BitVec.ofNat 52 m)).unpack_cases
    · exact absurd special (by decide)
    · exact absurd special (by decide)
    · rw [empty] at carried
      exact absurd carried (Nat.ne_of_lt positive)
    · rw [same]
      exact finite_congr _ carried rfl
    · exact absurd rfl least
  · obtain ⟨mantissa, lower, upper, -⟩ := fits
    rw [pack_normal sign positive large ⟨mantissa, lower, upper, .inl large⟩]
    have biased : (BitVec.ofNat 11 (q + 1075).toNat).toNat = (q + 1075).toNat := by
      rw [BitVec.toNat_ofNat, Nat.mod_eq_of_lt (by omega)]
    have carried : (BitVec.ofNat 52 m).toNat = m - 2 ^ 52 := by
      rw [BitVec.toNat_ofNat, Nat.mod_eq_sub_mod large, Nat.mod_eq_of_lt (by omega)]
    have small : (q + 1075).toNat < 2047 := by omega
    have large : 0 < (q + 1075).toNat := by omega
    obtain ⟨special, -⟩ | ⟨special, -⟩ | ⟨least, -⟩ | ⟨least, -⟩ | ⟨-, -, _, same⟩ :=
      (parts_packComponents sign (BitVec.ofNat 11 (q + 1075).toNat)
        (BitVec.ofNat 52 m)).unpack_cases
    · rw [special] at biased
      exact absurd biased.symm (Nat.ne_of_lt small)
    · rw [special] at biased
      exact absurd biased.symm (Nat.ne_of_lt small)
    · rw [least] at biased
      exact absurd biased (Nat.ne_of_lt large)
    · rw [least] at biased
      exact absurd biased (Nat.ne_of_lt large)
    · rw [same]
      exact finite_congr _ (by omega) (by omega)

/-- A double is packed into the bits that it has been unpacked from. -/
theorem pack_unpack (x : Float.Model) : pack x.unpack = x := by
  suffices same : UnpackedFloat.pack Format.binary64 x.unpack = x.toBits.toBitVec by
    have whole : (pack x.unpack).toBits = x.toBits := congrArg UInt64.ofBitVec same
    cases x
    exact Float.Model.mk.injEq .. ▸ whole
  obtain ⟨sign, exponent, mantissa, parts⟩ := parts_of_bits x.toBits.toBitVec
  have small : mantissa.toNat < 2 ^ 52 := mantissa.isLt
  change UnpackedFloat.pack Format.binary64
    (UnpackedFloat.unpack Format.binary64 x.toBits.toBitVec) = _
  have put := parts.packComponents
  obtain ⟨rfl, rfl, same⟩ | ⟨rfl, other, same⟩ | ⟨rfl, rfl, same⟩ |
    ⟨rfl, positive, same⟩ | ⟨least, greatest, positive, same⟩ := parts.unpack_cases
  · rw [same]
    exact put
  · rw [same]
    refine (x.valid.eq_packedNaN parts.exponent ?_).symm
    rw [parts.mantissa]
    exact other
  · rw [same]
    exact put
  · rw [same, pack_subnormal sign positive small, BitVec.ofNat_toNat, BitVec.setWidth_eq]
    exact put
  · have biased : (exponent.toNat - 1075 + 1075 : Int).toNat = exponent.toNat := by omega
    have carried : BitVec.ofNat 52 (2 ^ 52 + mantissa.toNat) = mantissa := by
      apply BitVec.eq_of_toNat_eq
      rw [BitVec.toNat_ofNat, Nat.add_mod_left, Nat.mod_eq_of_lt small]
    rw [same, pack_normal sign positive (Nat.le_add_right _ _) (canonical_of_unpack same),
      biased, carried, BitVec.ofNat_toNat, BitVec.setWidth_eq]
    exact put

end MatrixCalculator.Double
