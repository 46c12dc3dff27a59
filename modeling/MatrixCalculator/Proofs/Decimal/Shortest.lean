import MatrixCalculator.Proofs.Decimal.Digits
import MatrixCalculator.Proofs.Double.Rounding
import Mathlib.Data.Rat.Floor

/-! The shortest decimal numbers. With 17 digits the decimal numbers lie so close to each other
that one of them stands in the neighbourhood of any double, so the search finds a number, and what
it finds stands in the neighbourhood. -/
namespace MatrixCalculator.Decimal

open MatrixCalculator.Double

variable {m : Nat} {q exponent : Int} {x : ℚ} {range : Neighbourhood} {number : Number}

section LeadingDigit

theorem ten_pos (exponent : Int) : (0 : ℚ) < 10 ^ exponent :=
  zpow_pos (by norm_num) exponent

theorem power_ten (exponent : Int) : power 10 exponent = (10 : ℚ) ^ exponent := by
  rw [power_eq, Nat.cast_ofNat]

/-- A positive number is at least the power of ten of its leading digit. -/
theorem power_leadingExponent_le (positive : 0 < x) : (10 : ℚ) ^ leadingExponent x ≤ x := by
  unfold leadingExponent
  dsimp only
  split
  · next guessed =>
    rwa [power_ten] at guessed
  · -- The guess from the lengths of numerator and denominator is too large by at most one.
    have numerator : 0 < x.num := Rat.num_pos.mpr positive
    have above := pow_length_toDigits_le (n := x.num.natAbs) (by omega)
    have below := lt_pow_length_toDigits x.den
    have length : 0 < (Nat.toDigits 10 x.num.natAbs).length := Nat.length_toDigits_pos
    have size : (x.num.natAbs : ℚ) / x.den = x := by
      have cast : ((x.num.natAbs : Int) : ℚ) = x.num :=
        congrArg Int.cast (Int.natAbs_of_nonneg numerator.le)
      rw [← Int.cast_natCast x.num.natAbs, cast, Rat.num_div_den]
    have exponents : ((Nat.toDigits 10 x.num.natAbs).length : Int) -
        (Nat.toDigits 10 x.den).length - 1 =
        ((Nat.toDigits 10 x.num.natAbs).length - 1 : Nat) - (Nat.toDigits 10 x.den).length := by
      omega
    rw [exponents, zpow_sub₀ (by norm_num), zpow_natCast, zpow_natCast]
    conv => rhs; rw [← size]
    refine div_le_div₀ (Nat.cast_nonneg _) ?_ (Nat.cast_pos.mpr x.den_pos) ?_
    · exact_mod_cast above
    · exact_mod_cast below.le

end LeadingDigit

section Grid

/-- What is found on a grid is a multiple of its unit in the neighbourhood. -/
theorem holds_of_onGrid (found : onGrid range exponent = some number) :
    number.exponent = exponent ∧ range.holds (number.digits * 10 ^ exponent) = true := by
  unfold onGrid at found
  simp only [power_ten] at found
  split at found
  · contradiction
  · next below _ =>
    cases found
    exact ⟨rfl, below⟩
  · next _ above =>
    cases found
    exact ⟨rfl, by exact_mod_cast above⟩
  · next below above =>
    split at found
    · cases found
      exact ⟨rfl, below⟩
    · cases found
      exact ⟨rfl, by exact_mod_cast above⟩

/-- A grid that is finer than both halves of a neighbourhood has a number in it. -/
theorem exists_onGrid (centre : 0 ≤ range.centre)
    (lower : range.lower + 10 ^ exponent / 2 < range.centre)
    (upper : range.centre + 10 ^ exponent / 2 < range.upper) :
    ∃ number, onGrid range exponent = some number := by
  have unit := ten_pos exponent
  let below := (range.centre / (10 : ℚ) ^ exponent).floor.toNat
  have whole : 0 ≤ (range.centre / (10 : ℚ) ^ exponent).floor :=
    Rat.le_floor_iff.mpr (by simpa using div_nonneg centre unit.le)
  have cast : ((below : Nat) : ℚ) = (range.centre / (10 : ℚ) ^ exponent).floor := by
    rw [← Int.cast_natCast, Int.toNat_of_nonneg whole]
  have under : below * (10 : ℚ) ^ exponent ≤ range.centre := by
    rw [cast, ← le_div_iff₀ unit]
    exact Rat.floor_le _
  have above : range.centre < (below + 1) * 10 ^ exponent := by
    rw [cast, ← div_lt_iff₀ unit]
    exact_mod_cast Rat.lt_floor_add_one _
  have inside : range.holds (below * 10 ^ exponent) = true ∨
      range.holds ((below + 1) * 10 ^ exponent) = true := by
    rcases le_or_gt (range.centre - below * 10 ^ exponent) (10 ^ exponent / 2) with near | far
    · exact .inl (holds_of_inside (by linarith) (by linarith))
    · exact .inr (holds_of_inside (by linarith) (by linarith))
  unfold onGrid
  simp only [power_ten]
  split
  · next absent missing =>
    rcases inside with first | second
    · exact absurd (first.symm.trans absent) (by decide)
    · exact absurd (second.symm.trans missing) (by decide)
  · exact ⟨_, rfl⟩
  · exact ⟨_, rfl⟩
  · split <;> exact ⟨_, rfl⟩

end Grid

/-- The unit of the finest grid is small beside the gap between two doubles. -/
theorem finest_unit_le (positive : 0 < m) :
    (10 : ℚ) ^ (leadingExponent (m * 2 ^ q) - 16) ≤ m / 10 ^ 16 * 2 ^ q := by
  have centre : (0 : ℚ) < m * 2 ^ q := mul_pos (Nat.cast_pos.mpr positive) (unit_pos q)
  have lead := power_leadingExponent_le centre
  rw [zpow_sub₀ (by norm_num), div_mul_eq_mul_div]
  exact div_le_div_of_nonneg_right lead (by norm_num)

/-- The grids that are tried for the shortest number, the coarsest first. -/
def grids (m : Nat) (q : Int) : List Int :=
  (List.range longest).map fun (count : Nat) => leadingExponent (m * 2 ^ q) - (count : Int)

/-- Some grid has a number in the neighbourhood, the finest if no other. -/
theorem exists_findSome?_grids (positive : 0 < m) (fits : Canonical m q) :
    ∃ number, (grids m q).findSome? (onGrid (Neighbourhood.ofBinary m q)) = some number := by
  have unit := unit_pos q
  have finest := finest_unit_le (q := q) positive
  have digits : (m : ℚ) < 2 ^ 53 := by exact_mod_cast fits.mantissa
  obtain ⟨number, last⟩ : ∃ number, onGrid (Neighbourhood.ofBinary m q)
      (leadingExponent (m * 2 ^ q) - 16) = some number := by
    rw [ofBinary_eq]
    refine exists_onGrid (mul_pos (Nat.cast_pos.mpr positive) unit).le ?_ ?_
    · dsimp only
      split
      · next narrow =>
        rw [narrow.1] at finest ⊢
        push_cast at finest ⊢
        linarith
      · nlinarith
    · dsimp only
      nlinarith
  have member : leadingExponent (m * 2 ^ q) - 16 ∈ grids m q :=
    List.mem_map.mpr ⟨16, by decide, rfl⟩
  refine Option.ne_none_iff_exists'.mp fun none => ?_
  cases last.symm.trans (List.findSome?_eq_none_iff.mp none _ member)

/-- The shortest number that determines a double stands in its neighbourhood. -/
theorem shortest_holds (positive : 0 < m) (fits : Canonical m q) :
    (Neighbourhood.ofBinary m q).holds
      ((shortest m q).digits * 10 ^ (shortest m q).exponent) = true := by
  obtain ⟨number, search⟩ := exists_findSome?_grids positive fits
  have centre : (Neighbourhood.ofBinary m q).centre = m * 2 ^ q := by rw [ofBinary_eq]
  have same : shortest m q = number := by
    unfold shortest
    dsimp only
    rw [centre]
    exact congrArg (Option.getD · _) search
  obtain ⟨exponent, -, found⟩ := List.exists_of_findSome?_eq_some search
  obtain ⟨unit, holds⟩ := holds_of_onGrid found
  rw [same, unit]
  exact holds

end MatrixCalculator.Decimal
