import MatrixCalculator.Proofs.Double.Order
import MatrixCalculator.Proofs.Double.Scientific
import Mathlib.Data.Int.Log
import Mathlib.Data.Rat.Floor

/-! Neighbourhoods of doubles. Every number that is neither smaller than the normal doubles nor larger
than the largest one lies in the neighbourhood of a double with all 53 digits. -/
namespace MatrixCalculator.Double

open MatrixCalculator.Decimal

variable {m : Nat} {q : Int} {v : ℚ}

/-- What is nearest to a mantissa among the doubles of its exponent has the number in its
neighbourhood, unless it is a power of two and the doubles below lie nearer. -/
theorem holds_of_nearest (nearest : Nearest m (v / 2 ^ q))
    (narrow : m = 2 ^ 52 → (m : ℚ) - 1 / 4 ≤ v / 2 ^ q) :
    (Neighbourhood.ofBinary m q).holds v = true := by
  have unit := unit_pos q
  rw [ofBinary_eq]
  unfold Neighbourhood.holds
  dsimp only
  split
  · next even =>
    rw [Bool.and_eq_true, decide_eq_true_eq, decide_eq_true_eq, ← le_div_iff₀ unit,
      ← div_le_iff₀ unit]
    refine ⟨?_, nearest.upper⟩
    split
    · next power => exact narrow power.1
    · exact nearest.lower
  · next odd =>
    have odd : m % 2 = 1 := by simpa using odd
    have other : ¬(m = 2 ^ 52 ∧ -1074 < q) := by
      rintro ⟨rfl, -⟩
      exact absurd odd (by decide)
    rw [Bool.and_eq_true, decide_eq_true_eq, decide_eq_true_eq, if_neg other, ← lt_div_iff₀ unit,
      ← div_lt_iff₀ unit]
    exact nearest.inside odd

/-- A number that rounds up to a power of two lies in the neighbourhood of that power, which belongs
to the next exponent. -/
theorem holds_of_carry (nearest : Nearest (2 ^ 53) (v / 2 ^ q)) (below : v / 2 ^ q < 2 ^ 53) :
    (Neighbourhood.ofBinary (2 ^ 52) (q + 1)).holds v = true := by
  have halved : v / 2 ^ (q + 1) = v / 2 ^ q / 2 := by
    rw [zpow_add_one₀ two_ne_zero, div_div]
  have rounded := nearest.lower
  push_cast at rounded
  apply holds_of_nearest
  · rw [halved]
    push_cast
    exact ⟨by linarith, by linarith, fun odd => absurd odd (by decide)⟩
  · intro _
    rw [halved]
    push_cast
    linarith

theorem Nearest.le_of_le {r b : Nat} (nearest : Nearest r v) (le : (b : ℚ) ≤ v) : b ≤ r := by
  have close : (b : ℚ) < (r + 1 : Nat) := by
    push_cast
    linarith [nearest.upper]
  exact Nat.le_of_lt_succ (by exact_mod_cast close)

theorem Nearest.le_of_lt {r b : Nat} (nearest : Nearest r v) (lt : v < b) : r ≤ b := by
  have close : (r : ℚ) < (b + 1 : Nat) := by
    push_cast
    linarith [nearest.lower]
  exact Nat.le_of_lt_succ (by exact_mod_cast close)

theorem exists_nearest (nonneg : 0 ≤ v) : ∃ r, Nearest r v := by
  obtain ⟨n, d, positive, rfl⟩ : ∃ n d : Nat, 0 < d ∧ v = n / d :=
    ⟨v.num.toNat, v.den, v.den_pos, by
      rw [← Int.cast_natCast, Int.toNat_of_nonneg (Rat.num_nonneg.mpr nonneg), Rat.num_div_den]⟩
  exact ⟨_, (approximates_quotient n positive).nearest⟩

theorem cast_largest : (largest : ℚ) = (2 ^ 53 - 1) * 2 ^ (971 : ℤ) := by
  have exponent : (971 : ℤ) = (971 : Nat) := rfl
  rw [exponent, zpow_natCast]
  simp only [largest, cast_shifted]
  norm_num

theorem largest_lt : (largest : ℚ) < 2 ^ (1024 : ℤ) := by
  have power : (1024 : ℤ) = (53 : Nat) + 971 := rfl
  rw [cast_largest, power, zpow_add₀ two_ne_zero, zpow_natCast]
  exact mul_lt_mul_of_pos_right (by norm_num) (unit_pos 971)

/-- No number up to the largest double is rounded up to the power of two above it. -/
theorem exponent_lt_of_carry (nearest : Nearest (2 ^ 53) (v / 2 ^ q)) (bounded : v ≤ largest) :
    q < 971 := by
  by_contra last
  have rounded := nearest.lower
  push_cast at rounded
  have power : (2 : ℚ) ^ (971 : ℤ) ≤ 2 ^ q := zpow_le_zpow_right₀ one_le_two (by omega)
  have below : v / 2 ^ q ≤ 2 ^ 53 - 1 := by
    rw [div_le_iff₀ (unit_pos q)]
    calc v ≤ largest := bounded
      _ = (2 ^ 53 - 1) * 2 ^ (971 : ℤ) := cast_largest
      _ ≤ (2 ^ 53 - 1) * 2 ^ q := mul_le_mul_of_nonneg_left power (by norm_num)
  linarith

/-- A number with 53 digits before the last place of an exponent lies in the neighbourhood of a
double, which may be the power of two above it. -/
theorem exists_holds_of_digits (lower : 2 ^ 52 ≤ v / 2 ^ q) (upper : v / 2 ^ q < 2 ^ 53)
    (least : -1074 ≤ q) (bounded : v ≤ largest) :
    ∃ m q, 2 ^ 52 ≤ m ∧ Canonical m q ∧ (Neighbourhood.ofBinary m q).holds v = true := by
  obtain ⟨r, nearest⟩ := exists_nearest ((by norm_num : (0 : ℚ) ≤ 2 ^ 52).trans lower)
  have long : 2 ^ 52 ≤ r := nearest.le_of_le (by exact_mod_cast lower)
  have short : r ≤ 2 ^ 53 := nearest.le_of_lt (by exact_mod_cast upper)
  have exponent : q ≤ 971 := by
    rw [le_div_iff₀ (unit_pos q), ← zpow_natCast, ← zpow_add₀ two_ne_zero] at lower
    have exponents := (zpow_lt_zpow_iff_right₀ one_lt_two).mp
      ((lower.trans bounded).trans_lt largest_lt)
    omega
  rcases Nat.lt_or_eq_of_le short with less | rfl
  · refine ⟨r, q, long, ⟨less, least, exponent, .inl long⟩, holds_of_nearest nearest ?_⟩
    rintro rfl
    push_cast
    linarith
  · have next := exponent_lt_of_carry nearest bounded
    exact ⟨2 ^ 52, q + 1, Nat.le_refl _,
      ⟨by decide, by omega, by omega, .inl (Nat.le_refl _)⟩, holds_of_carry nearest upper⟩

/-- A number in the range of the normal doubles lies in the neighbourhood of one of them. -/
theorem exists_holds (normal : 2 ^ (-1022 : ℤ) ≤ v) (bounded : v ≤ largest) :
    ∃ m q, 2 ^ 52 ≤ m ∧ Canonical m q ∧ (Neighbourhood.ofBinary m q).holds v = true := by
  have positive : 0 < v := (unit_pos _).trans_le normal
  let exponent := Int.log 2 v
  have lower : (2 : ℚ) ^ exponent ≤ v := Int.zpow_log_le_self (by decide) positive
  have upper : v < 2 ^ (exponent + 1) := Int.lt_zpow_succ_log_self (by decide) v
  have least : -1022 < exponent + 1 :=
    (zpow_lt_zpow_iff_right₀ (one_lt_two (α := ℚ))).mp (normal.trans_lt upper)
  refine exists_holds_of_digits (q := exponent - 52) ?_ ?_ (by omega) bounded
  · rw [le_div_iff₀ (unit_pos _), ← zpow_natCast, ← zpow_add₀ two_ne_zero]
    exact (zpow_le_zpow_right₀ one_le_two (by omega)).trans lower
  · exact div_lt_two_pow upper (by omega)

end MatrixCalculator.Double
