import MatrixCalculator.Proofs.Flat.Textbook
import MatrixCalculator.Proofs.Rounding.Nearest
import MatrixCalculator.Proofs.Value.Division
import Mathlib.LinearAlgebra.Matrix.ZPow

/-! Powers in exact arithmetic. Repeated squaring gives the product of as many copies of a matrix as
the exponent says, and a negative exponent takes copies of the inverse. So the exponents of powers
that exist add up in products, whatever their signs are. -/
namespace MatrixCalculator

variable {n : Nat}

theorem nearest_intCast (k : ℤ) : Scalar.nearest (k : ℚ) = some k :=
  congrArg some (Rounding.nearest_intCast k)

theorem isIntegral_intCast (k : ℤ) : isIntegral (k : ℚ) = true := by
  rw [isIntegral, nearest_intCast]
  exact (nearlyEqual_iff _ _).mpr (.inl rfl)

theorem Grid.toMatrix_power (g : Grid ℚ n n) (k : Nat) :
    (g.power k).toMatrix = g.toMatrix ^ k := by
  have powers := (Flat.powers_raised g.toMatrix k).eq_pow
  rwa [Flat.raised, Grid.ofMatrix_toMatrix] at powers

namespace DenseMatrix

def repeated {α : Type} [Zero α] [One α] [Add α] [Mul α] (m : DenseMatrix α) :
    Nat → Except Fault (DenseMatrix α)
  | 0 => identity m.rows
  | k + 1 => do (← m.repeated k).mul m

theorem repeated_ofGrid (g : Grid ℚ n n) (k : Nat) :
    (ofGrid g).repeated k = .ok (ofGrid (g.power k)) := by
  induction k with
  | zero =>
    have none : g.power 0 = Grid.identity n := by
      apply Grid.toMatrix_injective
      rw [Grid.toMatrix_power, pow_zero, Grid.toMatrix_identity]
    rw [none]
    exact identity_natCast n
  | succ k ih =>
    have another : g.power (k + 1) = (g.power k).mul g := by
      apply Grid.toMatrix_injective
      rw [Grid.toMatrix_mul, Grid.toMatrix_power, Grid.toMatrix_power, pow_succ]
    rw [repeated, ih, another]
    exact mul_ofGrid (g.power k) g

section Sign

variable {x : ℚ} {k : ℤ}

theorem power_of_nonneg (g : Grid ℚ n n) (near : Scalar.nearest x = some k)
    (integral : isIntegral x = true) (nonneg : 0 ≤ k) :
    ((ofGrid g).power x).outcome = .ok (ofGrid (g.power k.natAbs)) := by
  rw [power_ofGrid, near, integral]
  dsimp only
  rw [if_neg (not_lt.mpr nonneg)]
  rfl

theorem power_of_neg (g : Grid ℚ n n) (near : Scalar.nearest x = some k)
    (integral : isIntegral x = true) (negative : k < 0) :
    ((ofGrid g).power x).outcome =
      g.inverse.outcome.map fun h => ofGrid (h.power k.natAbs) := by
  rw [power_ofGrid, near, integral]
  dsimp only
  rw [if_pos negative]

end Sign

theorem exists_power (g : Grid ℚ n n) {k : ℤ}
    (invertible : k < 0 → ∃ h, g.inverse.outcome = .ok h) :
    ∃ p, ((ofGrid g).power (k : ℚ)).outcome = .ok p := by
  rcases lt_or_ge k 0 with negative | nonneg
  · obtain ⟨h, inverted⟩ := invertible negative
    rw [power_of_neg g (nearest_intCast k) (isIntegral_intCast k) negative, inverted]
    exact ⟨_, rfl⟩
  · exact ⟨_, power_of_nonneg g (nearest_intCast k) (isIntegral_intCast k) nonneg⟩

theorem right_inverse_of_inverse {g h : Grid ℚ n n} (inverted : g.inverse.outcome = .ok h) :
    g.toMatrix * h.toMatrix = 1 := by
  rw [← Grid.toMatrix_mul, (Grid.mul_eq_identity_of_inverse inverted).2, Grid.toMatrix_identity]

theorem toMatrix_of_power {g : Grid ℚ n n} {k : ℤ} {p : DenseMatrix ℚ}
    (found : ((ofGrid g).power (k : ℚ)).outcome = .ok p) :
    ∃ h : Grid ℚ n n, p = ofGrid h ∧ h.toMatrix = g.toMatrix ^ k ∧
      (k < 0 → ∃ b, g.inverse.outcome = .ok b) := by
  have near := nearest_intCast k
  have integral := isIntegral_intCast k
  rcases lt_or_ge k 0 with negative | nonneg
  · rw [power_of_neg g near integral negative] at found
    cases inverted : g.inverse.outcome with
    | error fault =>
      rw [inverted] at found
      contradiction
    | ok h =>
      rw [inverted] at found
      refine ⟨_, (Except.ok.inj found).symm, ?_, fun _ => ⟨h, rfl⟩⟩
      have size : k = -(k.natAbs : ℤ) := by omega
      rw [Grid.toMatrix_power, ← Matrix.inv_eq_right_inv (right_inverse_of_inverse inverted),
        Matrix.inv_pow']
      conv_rhs => rw [size]
      exact (Matrix.zpow_neg_natCast _ _).symm
  · rw [power_of_nonneg g near integral nonneg] at found
    refine ⟨_, (Except.ok.inj found).symm, ?_, fun negative => absurd nonneg negative.not_ge⟩
    have size : k = (k.natAbs : ℤ) := by omega
    rw [Grid.toMatrix_power]
    conv_rhs => rw [size]
    exact (zpow_natCast _ _).symm

/-- If the sum of two exponents is negative, so is one of them, and the inverse exists. -/
theorem mul_power (g : Grid ℚ n n) {i j : ℤ} {p q : DenseMatrix ℚ}
    (first : ((ofGrid g).power (i : ℚ)).outcome = .ok p)
    (second : ((ofGrid g).power (j : ℚ)).outcome = .ok q) :
    ∃ r, ((ofGrid g).power ((i + j : ℤ) : ℚ)).outcome = .ok r ∧ p.mul q = .ok r := by
  obtain ⟨h, rfl, left, inverted⟩ := toMatrix_of_power first
  obtain ⟨k, rfl, right, other⟩ := toMatrix_of_power second
  obtain ⟨r, both⟩ := exists_power g (k := i + j) fun negative => by
    rcases lt_or_ge i 0 with below | above
    · exact inverted below
    · exact other (by omega)
  obtain ⟨l, rfl, total, _⟩ := toMatrix_of_power both
  have unit (invertible : ∃ b, g.inverse.outcome = .ok b) : IsUnit g.toMatrix.det := by
    obtain ⟨b, found⟩ := invertible
    exact Matrix.isUnit_det_of_right_inverse (right_inverse_of_inverse found)
  have product : h.mul k = l := by
    apply Grid.toMatrix_injective
    rw [Grid.toMatrix_mul, left, right, total]
    rcases lt_or_ge i 0 with negative | nonneg
    · exact (Matrix.zpow_add (unit (inverted negative)) i j).symm
    · rcases lt_or_ge j 0 with negative | both_nonneg
      · exact (Matrix.zpow_add (unit (other negative)) i j).symm
      · exact (Matrix.zpow_add_of_nonneg nonneg both_nonneg).symm
  exact ⟨_, both, by rw [mul_ofGrid, product]⟩

/-- The power of a square matrix to a number that rounds to `k` is the product of `k` copies, or of
`-k` copies of the inverse, and then it fails exactly as the inverse does. The product of two powers
with whole exponents is the power to their sum. -/
theorem power_eq_repeated {a : DenseMatrix ℚ} (square : a.cols = a.rows) :
    (∀ (x : ℚ) (k : ℤ), Scalar.nearest x = some k → isIntegral x = true →
      (0 ≤ k → ∃ p, a.repeated k.natAbs = .ok p ∧ (a.power x).outcome = .ok p) ∧
      (k < 0 →
        (∀ fault, (a.power x).outcome = .error fault ↔ a.inverse.outcome = .error fault) ∧
        ∀ b, a.inverse.outcome = .ok b →
          ∃ p, b.repeated k.natAbs = .ok p ∧ (a.power x).outcome = .ok p)) ∧
    ∀ (i j : ℤ) (p q : DenseMatrix ℚ), (a.power (i : ℚ)).outcome = .ok p →
      (a.power (j : ℚ)).outcome = .ok q →
        ∃ r, (a.power ((i + j : ℤ) : ℚ)).outcome = .ok r ∧ p.mul q = .ok r := by
  obtain ⟨n, g, rfl⟩ := exists_grid_of_square a square
  refine ⟨fun x k near integral => ⟨fun nonneg => ?_, fun negative => ?_⟩,
    fun i j p q => mul_power g⟩
  · exact ⟨_, repeated_ofGrid g _, power_of_nonneg g near integral nonneg⟩
  · rw [power_of_neg g near integral negative, inverse_ofGrid]
    cases g.inverse.outcome with
    | error fault => exact ⟨fun other => by simp [Except.map], fun b found => by contradiction⟩
    | ok h =>
      refine ⟨fun fault => ⟨fun failed => by contradiction, fun failed => by contradiction⟩, ?_⟩
      rintro _ ⟨⟩
      exact ⟨_, repeated_ofGrid h _, rfl⟩

def fibonacci : DenseMatrix ℚ :=
  ofGrid (m := 2) (n := 2) ⟨#v[1, 1, 1, 0]⟩

def cubed : DenseMatrix ℚ :=
  ofGrid (m := 2) (n := 2) ⟨#v[3, 2, 2, 1]⟩

def inverseSquared : DenseMatrix ℚ :=
  ofGrid (m := 2) (n := 2) ⟨#v[1, -1, -1, 2]⟩

def singular : DenseMatrix ℚ :=
  ofGrid (m := 2) (n := 2) ⟨#v[1, 1, 1, 1]⟩

/-- The exponent `3` also with noise, one below zero, and a matrix without an inverse. -/
theorem fibonacci_powers :
    (fibonacci.power (3 + 1 / 10 ^ 11)).outcome = .ok cubed ∧
      (fibonacci.power (-2 : ℤ)).outcome = .ok inverseSquared ∧
      cubed.mul inverseSquared = .ok fibonacci ∧
      (singular.power (-1 : ℤ)).outcome = .error .singular := by
  obtain ⟨whole, add⟩ := power_eq_repeated (a := fibonacci) rfl
  obtain ⟨refused, _⟩ := power_eq_repeated (a := singular) rfl
  have third : fibonacci.repeated 3 = .ok cubed := by decide +kernel
  have inverted : fibonacci.inverse.outcome =
      .ok (ofGrid (m := 2) (n := 2) ⟨#v[0, 1, 1, -1]⟩) := by decide +kernel
  have second : repeated (ofGrid (m := 2) (n := 2) (⟨#v[0, 1, 1, -1]⟩ : Grid ℚ 2 2)) 2 =
      .ok inverseSquared := by decide +kernel
  obtain ⟨_, product, noisy⟩ := (whole (3 + 1 / 10 ^ 11) 3 (by decide +kernel) (by decide +kernel)).1
    (by decide)
  cases Except.ok.inj (product.symm.trans third)
  obtain ⟨_, product, plain⟩ := (whole (3 : ℤ) 3 (by decide +kernel) (by decide +kernel)).1
    (by decide)
  cases Except.ok.inj (product.symm.trans third)
  obtain ⟨_, product, below⟩ := ((whole (-2 : ℤ) (-2) (by decide +kernel) (by decide +kernel)).2
    (by decide)).2 _ inverted
  cases Except.ok.inj (product.symm.trans second)
  obtain ⟨_, first, total⟩ := add 3 (-2) _ _ plain below
  have one : (fibonacci.power ((3 + -2 : ℤ) : ℚ)).outcome = .ok fibonacci := by decide +kernel
  cases Except.ok.inj (first.symm.trans one)
  refine ⟨noisy, below, total, ?_⟩
  exact (((refused (-1 : ℤ) (-1) (by decide +kernel) (by decide +kernel)).2 (by decide)).1 _).mpr
    (by decide +kernel)

end DenseMatrix

end MatrixCalculator
