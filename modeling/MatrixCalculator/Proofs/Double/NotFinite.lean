import MatrixCalculator.Proofs.Double.Range
import MatrixCalculator.Tolerance

/-! Doubles that are not finite. An infinite gap measured against an infinite size is no number,
so that nothing but a finite double is nearly equal to a finite one. -/
namespace MatrixCalculator.Double

open Float.Model

theorem unpack_of_exponent {bits : BitVec 64}
    (regular : @UnpackedFloat.unpackExponent Format.binary64 bits ≠ -1#11) :
    (UnpackedFloat.unpack Format.binary64 bits).isNaN = false ∧
      (UnpackedFloat.unpack Format.binary64 bits).isInf = false := by
  unfold UnpackedFloat.unpack
  rw [if_neg regular]
  dsimp only
  by_cases zero : @UnpackedFloat.unpackExponent Format.binary64 bits = 0#11
  · rw [if_pos zero]
    by_cases empty : @UnpackedFloat.unpackMantissa Format.binary64 bits = 0#52
    · rw [dif_pos empty]; exact ⟨rfl, rfl⟩
    · rw [dif_neg empty]; exact ⟨rfl, rfl⟩
  · rw [if_neg zero]; exact ⟨rfl, rfl⟩

theorem add_infinity_of_exponent (exponent : BitVec 11) (mantissa : BitVec 52)
    (regular : exponent ≠ -1#11) :
    UnpackedFloat.add Format.binary64
      (UnpackedFloat.unpack Format.binary64
        (UnpackedFloat.packComponents Format.binary64 .positive exponent mantissa))
      (.infinity .positive) = .infinity .positive := by
  rw [← @UnpackedFloat.unpackExponent_packComponents Format.binary64 .positive exponent mantissa]
    at regular
  obtain ⟨number, bounded⟩ := unpack_of_exponent regular
  revert number bounded
  cases UnpackedFloat.unpack Format.binary64 _ with
  | infinity sign => intro _ bounded; cases bounded
  | notANumber => intro number; cases number
  | zero sign => intros; rfl
  | finite sign m q positive => intros; rfl

theorem add_infinity (m : Nat) (q : Int) (positive : 0 < m) :
    UnpackedFloat.add Format.binary64 (pack (.finite .positive m q positive)).unpack
      (.infinity .positive) = .infinity .positive := by
  show UnpackedFloat.add _ (UnpackedFloat.unpack Format.binary64
    (UnpackedFloat.pack Format.binary64 _)) _ = _
  unfold UnpackedFloat.pack
  dsimp only
  split
  · rfl
  · next fits =>
    split
    · have bound : _ + 1 < 2048 := Nat.lt_of_not_le fits
      refine add_infinity_of_exponent _ _ fun same => ?_
      have value := congrArg BitVec.toNat same
      have greatest : (-1#11 : BitVec 11).toNat = 2047 := rfl
      rw [BitVec.toNat_ofNat, greatest, Nat.mod_eq_of_lt (Nat.lt_of_succ_lt bound)] at value
      omega
    · exact add_infinity_of_exponent _ _ (by decide)

theorem unpack_sub (x y : Float) : (x - y).toModel.unpack =
    (pack (UnpackedFloat.sub Format.binary64 x.toModel.unpack y.toModel.unpack)).unpack :=
  rfl

theorem unpack_add (x y : Float) : (x + y).toModel.unpack =
    (pack (UnpackedFloat.add Format.binary64 x.toModel.unpack y.toModel.unpack)).unpack :=
  rfl

theorem unpack_div (x y : Float) : (x / y).toModel.unpack =
    (pack (UnpackedFloat.div Format.binary64 x.toModel.unpack y.toModel.unpack)).unpack :=
  rfl

theorem unpack_abs (x : Float) : (Scalar.magnitude x).toModel.unpack =
    (pack x.toModel.unpack.abs).unpack :=
  rfl

theorem unpack_pack_infinity (sign : UnpackedFloat.Sign) :
    (pack (.infinity sign)).unpack = .infinity sign := by
  cases sign <;> rfl

theorem unpack_pack_zero (sign : UnpackedFloat.Sign) : (pack (.zero sign)).unpack = .zero sign := by
  cases sign <;> rfl

theorem unpack_pack_notANumber : (pack .notANumber).unpack = .notANumber :=
  rfl

theorem exact_isSome_iff (x : Float) :
    (exact x).isSome ↔ x.toModel.unpack.isNaN = false ∧ x.toModel.unpack.isInf = false := by
  unfold exact
  cases x.toModel.unpack with
  | infinity sign => exact ⟨nofun, fun ⟨_, bounded⟩ => nomatch bounded⟩
  | notANumber => exact ⟨nofun, fun ⟨number, _⟩ => nomatch number⟩
  | zero sign => exact ⟨fun _ => ⟨rfl, rfl⟩, fun _ => rfl⟩
  | finite sign m q positive => exact ⟨fun _ => ⟨rfl, rfl⟩, fun _ => rfl⟩

theorem magnitude_infinite {x : Float} {sign : UnpackedFloat.Sign}
    (infinite : x.toModel.unpack = .infinity sign) :
    (Scalar.magnitude x).toModel.unpack = .infinity .positive := by
  rw [unpack_abs, infinite]
  exact unpack_pack_infinity .positive

theorem sub_infinite {x y : Float} {sign : UnpackedFloat.Sign} (finite : (exact x).isSome)
    (infinite : y.toModel.unpack = .infinity sign) :
    (x - y).toModel.unpack = .infinity (-sign) := by
  obtain ⟨number, bounded⟩ := (exact_isSome_iff x).mp finite
  rw [unpack_sub, infinite]
  cases shape : x.toModel.unpack with
  | infinity sign => rw [shape] at bounded; cases bounded
  | notANumber => rw [shape] at number; cases number
  | zero _ => exact unpack_pack_infinity (-sign)
  | finite _ m q positive => exact unpack_pack_infinity (-sign)

theorem add_magnitudes_infinite {x y : Float} {sign : UnpackedFloat.Sign}
    (finite : (exact x).isSome) (infinite : y.toModel.unpack = .infinity sign) :
    (Scalar.magnitude x + Scalar.magnitude y).toModel.unpack = .infinity .positive := by
  obtain ⟨number, bounded⟩ := (exact_isSome_iff x).mp finite
  rw [unpack_add, magnitude_infinite infinite, unpack_abs]
  cases shape : x.toModel.unpack with
  | infinity sign => rw [shape] at bounded; cases bounded
  | notANumber => rw [shape] at number; cases number
  | zero sign =>
    have plain : (UnpackedFloat.zero sign).abs = .zero .positive := rfl
    rw [plain, unpack_pack_zero]
    exact unpack_pack_infinity .positive
  | finite sign m q positive =>
    have plain : (UnpackedFloat.finite sign m q positive).abs = .finite .positive m q positive := rfl
    rw [plain, add_infinity]
    exact unpack_pack_infinity .positive

theorem not_lt_of_infinite {x y : Float} (infinite : x.toModel.unpack = .infinity .positive) :
    ¬x < y := by
  rw [lt_iff, infinite]
  cases y.toModel.unpack with
  | infinity sign => cases sign <;> decide
  | _ => exact Bool.false_ne_true

theorem not_lt_of_notANumber {x y : Float} (undefined : x.toModel.unpack = .notANumber) :
    ¬x < y := by
  rw [lt_iff, undefined]
  exact Bool.false_ne_true

theorem incomparable_of_isNaN {x : Float} (y : Float) (undefined : x.isNaN = true) :
    ¬y < x ∧ exact x = none := by
  have undefined : x.toModel.unpack.isNaN = true := undefined
  unfold exact
  rw [lt_iff]
  cases shape : x.toModel.unpack with
  | notANumber => cases y.toModel.unpack <;> exact ⟨Bool.false_ne_true, rfl⟩
  | _ => rw [shape] at undefined; cases undefined

theorem div_infinite {x y : Float} (dividend : x.toModel.unpack = .infinity .positive)
    (divisor : y.toModel.unpack = .infinity .positive) : (x / y).toModel.unpack = .notANumber := by
  rw [unpack_div, dividend, divisor]
  exact unpack_pack_notANumber

theorem beq_zero_of_infinite {x : Float} {sign : UnpackedFloat.Sign}
    (infinite : x.toModel.unpack = .infinity sign) : (x == 0) = false := by
  rw [beq_eq, infinite, unpack_zero]
  cases sign <;> rfl

theorem beq_infinite {x y : Float} {sign : UnpackedFloat.Sign} (finite : (exact x).isSome)
    (infinite : y.toModel.unpack = .infinity sign) : (x == y) = false := by
  obtain ⟨number, bounded⟩ := (exact_isSome_iff x).mp finite
  rw [beq_eq, infinite]
  cases shape : x.toModel.unpack with
  | infinity sign => rw [shape] at bounded; cases bounded
  | notANumber => rw [shape] at number; cases number
  | zero s => cases s <;> cases sign <;> rfl
  | finite s m q positive => cases s <;> cases sign <;> rfl

theorem magnitude_notANumber {x : Float} (undefined : x.toModel.unpack = .notANumber) :
    (Scalar.magnitude x).toModel.unpack = .notANumber := by
  rw [unpack_abs, undefined]
  exact unpack_pack_notANumber

theorem sub_notANumber (x : Float) {y : Float} (undefined : y.toModel.unpack = .notANumber) :
    (x - y).toModel.unpack = .notANumber := by
  rw [unpack_sub, undefined]
  cases x.toModel.unpack <;> exact unpack_pack_notANumber

theorem add_notANumber (x : Float) {y : Float} (undefined : y.toModel.unpack = .notANumber) :
    (x + y).toModel.unpack = .notANumber := by
  rw [unpack_add, undefined]
  cases x.toModel.unpack <;> exact unpack_pack_notANumber

theorem div_notANumber (x : Float) {y : Float} (undefined : y.toModel.unpack = .notANumber) :
    (x / y).toModel.unpack = .notANumber := by
  rw [unpack_div, undefined]
  cases x.toModel.unpack <;> exact unpack_pack_notANumber

theorem beq_notANumber (x : Float) {y : Float} (undefined : y.toModel.unpack = .notANumber) :
    (x == y) = false := by
  rw [beq_eq, undefined]
  cases x.toModel.unpack <;> rfl

theorem notANumber_beq {x : Float} (y : Float) (undefined : x.toModel.unpack = .notANumber) :
    (x == y) = false := by
  rw [beq_eq, undefined]
  rfl

/-- What is nearly equal to a finite number is finite. -/
theorem isSome_of_nearlyEqual {x y : Float} (finite : (exact x).isSome)
    (near : nearlyEqual x y = true) : (exact y).isSome := by
  rw [exact_isSome_iff]
  cases shape : y.toModel.unpack with
  | zero sign => exact ⟨rfl, rfl⟩
  | finite sign m q positive => exact ⟨rfl, rfl⟩
  | infinity sign =>
    have gap := magnitude_infinite (sub_infinite finite shape)
    have size := add_magnitudes_infinite finite shape
    have ratio := div_infinite gap size
    simp [nearlyEqual, beq_infinite finite shape, beq_zero_of_infinite shape,
      not_lt_of_infinite gap, not_lt_of_infinite size, not_lt_of_notANumber ratio] at near
  | notANumber =>
    have gap := magnitude_notANumber (sub_notANumber x shape)
    have size := add_notANumber (Scalar.magnitude x) (magnitude_notANumber shape)
    have ratio := div_notANumber (Scalar.magnitude (x - y)) size
    simp [nearlyEqual, beq_notANumber x shape, notANumber_beq 0 shape,
      not_lt_of_notANumber gap, not_lt_of_notANumber size, not_lt_of_notANumber ratio] at near

end MatrixCalculator.Double
