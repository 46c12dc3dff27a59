import MatrixCalculator.Proofs.Double.NotFinite

/-! Products of doubles. The order of the factors makes no difference, also where a product is
rounded, and no factor makes a product finite again that has not been finite. -/
namespace MatrixCalculator.Double

open Float.Model

theorem unpack_mul (x y : Float) : (x * y).toModel.unpack =
    (pack (UnpackedFloat.mul Format.binary64 x.toModel.unpack y.toModel.unpack)).unpack :=
  rfl

theorem sign_mul_comm (s t : UnpackedFloat.Sign) : s * t = t * s := by
  cases s <;> cases t <;> rfl

theorem unpacked_mul_comm (u v : UnpackedFloat) :
    UnpackedFloat.mul Format.binary64 u v = UnpackedFloat.mul Format.binary64 v u := by
  cases u with
  | notANumber => cases v <;> rfl
  | infinity s => cases v with
    | notANumber | zero t => rfl
    | infinity t | finite t m q positive => exact congrArg UnpackedFloat.infinity (sign_mul_comm s t)
  | zero s => cases v with
    | notANumber | infinity t => rfl
    | zero t | finite t m q positive => exact congrArg UnpackedFloat.zero (sign_mul_comm s t)
  | finite s m q positive => cases v with
    | notANumber => rfl
    | infinity t => exact congrArg UnpackedFloat.infinity (sign_mul_comm s t)
    | zero t => exact congrArg UnpackedFloat.zero (sign_mul_comm s t)
    | finite t n p some =>
      show UnpackedFloat.roundWithAccuracy _ (s * t) (m * n) (q + p) _ =
        UnpackedFloat.roundWithAccuracy _ (t * s) (n * m) (p + q) _
      rw [sign_mul_comm, Nat.mul_comm, Int.add_comm]

theorem mul_comm (x y : Float) : x * y = y * x := by
  show Float.ofModel (pack (UnpackedFloat.mul _ _ _)) = Float.ofModel (pack (UnpackedFloat.mul _ _ _))
  rw [unpacked_mul_comm]

theorem exact_eq_none_iff (x : Float) : exact x = none ↔
    x.toModel.unpack = .notANumber ∨ ∃ sign, x.toModel.unpack = .infinity sign := by
  unfold exact
  cases x.toModel.unpack with
  | notANumber => exact ⟨fun _ => .inl rfl, fun _ => rfl⟩
  | infinity sign => exact ⟨fun _ => .inr ⟨sign, rfl⟩, fun _ => rfl⟩
  | zero sign => exact ⟨nofun, by rintro (same | ⟨_, same⟩) <;> cases same⟩
  | finite sign m q positive => exact ⟨nofun, by rintro (same | ⟨_, same⟩) <;> cases same⟩

/-- A product with a factor that is not finite is not finite. -/
theorem exact_mul_of_none {x : Float} (unbounded : exact x = none) (y : Float) :
    exact (x * y) = none := by
  rw [exact_eq_none_iff] at unbounded ⊢
  rw [unpack_mul]
  rcases unbounded with undefined | ⟨sign, infinite⟩
  · rw [undefined]
    exact .inl unpack_pack_notANumber
  · rw [infinite]
    cases y.toModel.unpack with
    | notANumber | zero t => exact .inl unpack_pack_notANumber
    | infinity t | finite t m q positive => exact .inr ⟨_, unpack_pack_infinity (sign * t)⟩

theorem infinite_mul {x y : Float} {m : Nat} {q : Int} {some : 0 < m}
    (infinite : x.toModel.unpack = .infinity .positive)
    (positive : y.toModel.unpack = .finite .positive m q some) :
    (x * y).toModel.unpack = .infinity .positive := by
  rw [unpack_mul, infinite, positive]
  exact unpack_pack_infinity .positive

end MatrixCalculator.Double
