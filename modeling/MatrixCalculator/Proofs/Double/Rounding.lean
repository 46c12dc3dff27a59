import MatrixCalculator.Proofs.Double.Packing
import Mathlib.Algebra.Order.Field.Basic
import Mathlib.Algebra.Order.Field.Rat
import Mathlib.Tactic.Linarith
import Mathlib.Tactic.NormNum
import Mathlib.Tactic.Ring
import Mathlib.Tactic.FieldSimp

/-! Rounding to the nearest double. A mantissa with two residual bits stands for a rational number
of which a fraction has been dropped, and shifting it keeps this meaning. So the mantissa that
comes out is nearest to the exact one, and what lies in the neighbourhood of a double is rounded
to that double. -/
namespace MatrixCalculator.Double

open Float.Model Float.Model.UnpackedFloat MatrixCalculator.Decimal

variable {m n : Nat} {q : Int} {x v : ℚ}

section Residue

/-- What the two residual bits tell about the fraction that has been dropped. -/
def Residue : (roundBit stickyBit : Bool) → ℚ → Prop
  | false, false, fraction => fraction = 0
  | false, true, fraction => 0 < fraction ∧ fraction < 1 / 2
  | true, false, fraction => fraction = 1 / 2
  | true, true, fraction => 1 / 2 < fraction ∧ fraction < 1

def Approximates (em : ExtendedMantissa) (x : ℚ) : Prop :=
  Residue em.roundBit em.stickyBit (x - em.mantissa)

/-- The whole number nearest to another number, and the even one of two. -/
structure Nearest (n : Nat) (x : ℚ) : Prop where
  lower : (n : ℚ) - 1 / 2 ≤ x
  upper : x ≤ n + 1 / 2
  inside : n % 2 = 1 → (n : ℚ) - 1 / 2 < x ∧ x < n + 1 / 2

theorem Nearest.not_lt (left : Nearest m x) (right : Nearest n x) : ¬m < n := by
  intro less
  have next : ((m + 1 : Nat) : ℚ) ≤ n := Nat.cast_le.mpr less
  rw [Nat.cast_add, Nat.cast_one] at next
  have middle : x = m + 1 / 2 := le_antisymm left.upper (by linarith [right.lower])
  have above : n = m + 1 := by
    have cast : (n : ℚ) = ((m + 1 : Nat) : ℚ) := by
      rw [Nat.cast_add, Nat.cast_one]
      linarith [right.lower]
    exact_mod_cast cast
  rcases Nat.mod_two_eq_zero_or_one m with even | odd
  · have inside := (right.inside (by omega)).1
    linarith
  · have inside := (left.inside odd).2
    linarith

theorem Nearest.unique (left : Nearest m x) (right : Nearest n x) : m = n :=
  Nat.le_antisymm (Nat.le_of_not_lt (right.not_lt left)) (Nat.le_of_not_lt (left.not_lt right))

variable {em : ExtendedMantissa}

theorem Approximates.bounds (stands : Approximates em x) :
    (em.mantissa : ℚ) ≤ x ∧ x < em.mantissa + 1 := by
  obtain ⟨n, round, sticky⟩ := em
  cases round <;> cases sticky <;> simp only [Approximates, Residue] at stands
  · constructor <;> linarith
  · constructor <;> linarith [stands.1, stands.2]
  · constructor <;> linarith
  · constructor <;> linarith [stands.1, stands.2]

/-- Rounding an extended mantissa gives what is nearest to the number it stands for. -/
theorem Approximates.nearest (stands : Approximates em x) : Nearest em.roundedMantissa x := by
  obtain ⟨n, round, sticky⟩ := em
  cases round <;> cases sticky <;> simp only [Approximates, Residue] at stands <;>
    simp only [ExtendedMantissa.roundedMantissa, ExtendedMantissa.accuracy,
      Accuracy.roundToNearestEven]
  · refine ⟨?_, ?_, fun _ => ⟨?_, ?_⟩⟩ <;> linarith
  · obtain ⟨above, below⟩ := stands
    refine ⟨?_, ?_, fun _ => ⟨?_, ?_⟩⟩ <;> linarith
  · rcases Nat.mod_two_eq_zero_or_one n with even | odd
    · rw [even, Nat.add_zero]
      refine ⟨?_, ?_, fun odd => ?_⟩
      · linarith
      · linarith
      · omega
    · rw [odd]
      refine ⟨?_, ?_, fun other => ?_⟩
      · push_cast
        linarith
      · push_cast
        linarith
      · omega
  · obtain ⟨above, below⟩ := stands
    refine ⟨?_, ?_, fun _ => ⟨?_, ?_⟩⟩ <;> push_cast <;> linarith

theorem half_cast (n : Nat) : ((n / 2 : Nat) : ℚ) = (n - (n % 2 : Nat)) / 2 := by
  have parts : ((2 * (n / 2) + n % 2 : Nat) : ℚ) = n := congrArg Nat.cast (Nat.div_add_mod n 2)
  push_cast at parts ⊢
  linarith

theorem Approximates.shiftRightOne (stands : Approximates em x) :
    Approximates em.shiftRightOne (x / 2) := by
  obtain ⟨n, round, sticky⟩ := em
  have half := half_cast n
  rcases Nat.mod_two_eq_zero_or_one n with even | odd
  · rw [even, Nat.cast_zero] at half
    cases round <;> cases sticky <;> simp only [Approximates, Residue] at stands <;>
      simp only [Approximates, ExtendedMantissa.shiftRightOne, even, half, Residue, Bool.or_false,
        Bool.or_true, bne_self_eq_false]
    · linarith
    · constructor <;> linarith [stands.1, stands.2]
    · constructor <;> linarith
    · constructor <;> linarith [stands.1, stands.2]
  · rw [odd, Nat.cast_one] at half
    have set : (1 != 0) = true := rfl
    cases round <;> cases sticky <;> simp only [Approximates, Residue] at stands <;>
      simp only [Approximates, ExtendedMantissa.shiftRightOne, odd, set, half, Residue,
        Bool.or_false, Bool.or_true]
    · linarith
    · constructor <;> linarith [stands.1, stands.2]
    · constructor <;> linarith
    · constructor <;> linarith [stands.1, stands.2]

theorem Approximates.shiftRight (stands : Approximates em x) (k : Nat) :
    Approximates (em >>> k) (x / 2 ^ k) := by
  induction k with
  | zero =>
    rw [pow_zero, div_one]
    exact stands
  | succ k ih =>
    have step := ih.shiftRightOne
    rw [div_div, ← pow_succ] at step
    exact step

theorem approximates_exact (n : Nat) :
    Approximates (.ofMantissaAndAccuracy n .exact) n :=
  sub_self (n : ℚ)

/-- A quotient with the comparison of its remainder stands for the exact quotient. -/
theorem approximates_quotient (n : Nat) {d : Nat} (positive : 0 < d) :
    Approximates (.ofMantissaAndAccuracy (n / d) (accuracyOfFraction (n % d) d)) (n / d : ℚ) := by
  have below : n % d < d := Nat.mod_lt n positive
  have unit : (0 : ℚ) < d := Nat.cast_pos.mpr positive
  have fraction : (n / d : ℚ) - (n / d : Nat) = (n % d : Nat) / d := by
    have parts : ((d * (n / d) + n % d : Nat) : ℚ) = n := congrArg Nat.cast (Nat.div_add_mod n d)
    rw [eq_div_iff unit.ne', sub_mul, div_mul_cancel₀ _ unit.ne', ← parts]
    push_cast
    ring
  unfold accuracyOfFraction
  split
  · next none =>
    change (n / d : ℚ) - (n / d : Nat) = 0
    rw [fraction, none, Nat.cast_zero, zero_div]
  · next some =>
    have above : (0 : ℚ) < (n % d : Nat) / d :=
      div_pos (Nat.cast_pos.mpr (Nat.pos_of_ne_zero some)) unit
    have last : ((n % d : Nat) / d : ℚ) < 1 := by
      rw [div_lt_one unit]
      exact_mod_cast below
    cases order : compare (2 * (n % d)) d with
    | lt =>
      have less : 2 * ((n % d : Nat) : ℚ) < d := by exact_mod_cast Nat.compare_eq_lt.mp order
      change 0 < (n / d : ℚ) - (n / d : Nat) ∧ (n / d : ℚ) - (n / d : Nat) < 1 / 2
      rw [fraction]
      exact ⟨above, by rw [div_lt_div_iff₀ unit (by norm_num)]; linarith⟩
    | eq =>
      have same : 2 * ((n % d : Nat) : ℚ) = d := by exact_mod_cast Nat.compare_eq_eq.mp order
      change (n / d : ℚ) - (n / d : Nat) = 1 / 2
      rw [fraction, div_eq_div_iff unit.ne' (by norm_num)]
      linarith
    | gt =>
      have more : (d : ℚ) < 2 * ((n % d : Nat) : ℚ) := by
        exact_mod_cast Nat.compare_eq_gt.mp order
      change 1 / 2 < (n / d : ℚ) - (n / d : Nat) ∧ (n / d : ℚ) - (n / d : Nat) < 1
      rw [fraction]
      exact ⟨by rw [div_lt_div_iff₀ (by norm_num) unit]; linarith, last⟩

end Residue

section Neighbourhood

theorem power_eq (base : Nat) (exponent : Int) : power base exponent = (base : ℚ) ^ exponent := by
  unfold power
  split
  · next positive =>
    obtain ⟨k, rfl⟩ := Int.eq_ofNat_of_zero_le positive
    rw [Int.toNat_natCast, zpow_natCast, Nat.pow_eq, Nat.cast_pow]
  · next negative =>
    obtain ⟨k, same⟩ := Int.eq_ofNat_of_zero_le (show 0 ≤ -exponent by omega)
    obtain rfl : exponent = -k := by omega
    rw [neg_neg, Int.toNat_natCast, Rat.mkRat_eq_div, Nat.pow_eq, Nat.cast_pow, Int.cast_one,
      zpow_neg, zpow_natCast, one_div]

theorem unit_pos (q : Int) : (0 : ℚ) < 2 ^ q :=
  zpow_pos (by norm_num) q

theorem ofBinary_eq (m : Nat) (q : Int) : Neighbourhood.ofBinary m q =
    { centre := m * 2 ^ q
      lower := (m - if m = 2 ^ 52 ∧ -1074 < q then 1 / 4 else 1 / 2) * 2 ^ q
      upper := (m + 1 / 2) * 2 ^ q
      closed := m % 2 = 0 } := by
  have half : mkRat 1 2 = 1 / 2 := by norm_num
  have quarter : mkRat 1 4 = 1 / 4 := by norm_num
  simp only [Neighbourhood.ofBinary, power_eq, half, quarter, Nat.cast_ofNat]
  rfl

/-- A number in the neighbourhood of a double is as near to it as to any other one. -/
theorem nearest_of_holds (holds : (Neighbourhood.ofBinary m q).holds v = true) :
    Nearest m (v / 2 ^ q) ∧ (m = 2 ^ 52 → -1074 < q → (m : ℚ) - 1 / 4 ≤ v / 2 ^ q) := by
  have unit := unit_pos q
  rw [ofBinary_eq] at holds
  unfold Neighbourhood.holds at holds
  dsimp only at holds
  split at holds
  · next even =>
    simp only [Bool.and_eq_true, decide_eq_true_eq] at even holds
    rw [← le_div_iff₀ unit, ← div_le_iff₀ unit] at holds
    obtain ⟨lower, upper⟩ := holds
    refine ⟨⟨?_, upper, fun odd => by omega⟩, fun least above => ?_⟩
    · split at lower <;> linarith
    · rwa [if_pos ⟨least, above⟩] at lower
  · next odd =>
    simp only [Bool.and_eq_true, decide_eq_true_eq] at odd holds
    have wide : m ≠ 2 ^ 52 := by
      rintro rfl
      exact odd (by norm_num)
    rw [if_neg (fun narrow => wide narrow.1), ← lt_div_iff₀ unit, ← div_lt_iff₀ unit] at holds
    exact ⟨⟨holds.1.le, holds.2.le, fun _ => holds⟩, fun least => absurd least wide⟩

theorem Nearest.lt_two_pow (nearest : Nearest m (v / 2 ^ q)) (fits : Canonical m q) :
    v < 2 ^ (q + 53) := by
  have digits : (m : ℚ) + 1 ≤ 2 ^ 53 := by exact_mod_cast fits.mantissa
  have size : v / 2 ^ q < 2 ^ 53 := by linarith [nearest.upper]
  rw [zpow_add₀ two_ne_zero, mul_comm]
  exact (div_lt_iff₀ (unit_pos q)).mp (by exact_mod_cast size)

theorem Nearest.two_pow_le (nearest : Nearest m (v / 2 ^ q)) (positive : 0 < m) :
    2 ^ (q - 1) ≤ v := by
  have some : (1 : ℚ) ≤ m := by exact_mod_cast positive
  have size : 1 / 2 ≤ v / 2 ^ q := by linarith [nearest.lower]
  rw [le_div_iff₀ (unit_pos q)] at size
  rwa [zpow_sub₀ two_ne_zero, zpow_one, div_eq_inv_mul, ← one_div]

theorem holds_of_inside {range : Neighbourhood} (lower : range.lower < x)
    (upper : x < range.upper) :
    range.holds x = true := by
  unfold Neighbourhood.holds
  split
  · exact Bool.and_eq_true_iff.mpr ⟨decide_eq_true lower.le, decide_eq_true upper.le⟩
  · exact Bool.and_eq_true_iff.mpr ⟨decide_eq_true lower, decide_eq_true upper⟩

/-- A double lies in its own neighbourhood. -/
theorem holds_centre (m : Nat) (q : Int) :
    (Neighbourhood.ofBinary m q).holds (m * 2 ^ q) = true := by
  rw [ofBinary_eq]
  refine holds_of_inside (mul_lt_mul_of_pos_right ?_ (unit_pos q))
    (mul_lt_mul_of_pos_right ?_ (unit_pos q))
  · split <;> linarith
  · linarith

end Neighbourhood

section Round

variable {M : Nat} {E : Int} {accuracy : Accuracy}

theorem targetExponent_eq (total : Int) :
    Format.binary64.targetExponent total = max (total - 53) (-1074) :=
  rfl

theorem mantissa_ofMantissaAndAccuracy (n : Nat) (accuracy : Accuracy) :
    (ExtendedMantissa.ofMantissaAndAccuracy n accuracy).mantissa = n := by
  cases accuracy with
  | exact => rfl
  | inexact order => cases order <;> rfl

/-- The exponent that a mantissa is shifted to. -/
def target (M : Nat) (E : Int) : Int :=
  Format.binary64.targetExponent (totalExponent M E)

theorem target_eq (M : Nat) (E : Int) : target M E = max (M.log2 + E - 52) (-1074) := by
  rw [target, targetExponent_eq, totalExponent]
  omega

/-- The exponent that a mantissa is shifted to leaves 53 digits, or fewer if it is the least. -/
theorem target_bounds (stands : Approximates (.ofMantissaAndAccuracy M accuracy) (v / 2 ^ E))
    (placed : E ≤ target M E) :
    v < 2 ^ (target M E + 53) ∧ (target M E = -1074 ∨ 2 ^ (target M E + 52) ≤ v) := by
  obtain ⟨lower, upper⟩ := stands.bounds
  rw [mantissa_ofMantissaAndAccuracy] at lower upper
  rw [le_div_iff₀ (unit_pos E)] at lower
  rw [div_lt_iff₀ (unit_pos E)] at upper
  have exponent := target_eq M E
  constructor
  · have digits : (M : ℚ) + 1 ≤ 2 ^ (M.log2 + 1) := by exact_mod_cast Nat.lt_log2_self
    calc v < (M + 1) * 2 ^ E := upper
      _ ≤ 2 ^ (M.log2 + 1) * 2 ^ E := mul_le_mul_of_nonneg_right digits (unit_pos E).le
      _ = 2 ^ ((M.log2 + 1 : Nat) + E : Int) := by
        rw [zpow_add₀ two_ne_zero, zpow_natCast]
      _ ≤ 2 ^ (target M E + 53) := zpow_le_zpow_right₀ one_le_two (by omega)
  · rcases eq_or_ne (target M E) (-1074) with least | above
    · exact .inl least
    · refine .inr ?_
      have some : M ≠ 0 := by
        rintro rfl
        have none : Nat.log2 0 = 0 := rfl
        omega
      have digits : (2 : ℚ) ^ M.log2 ≤ M := by exact_mod_cast Nat.log2_self_le some
      calc (2 : ℚ) ^ (target M E + 52) = 2 ^ ((M.log2 : Int) + E) := by congr 1; omega
        _ = 2 ^ M.log2 * 2 ^ E := by rw [zpow_add₀ two_ne_zero, zpow_natCast]
        _ ≤ M * 2 ^ E := mul_le_mul_of_nonneg_right digits (unit_pos E).le
        _ ≤ v := lower

theorem shift_stands (stands : Approximates (.ofMantissaAndAccuracy M accuracy) (v / 2 ^ E))
    (placed : E ≤ target M E) :
    ∃ em, shiftToTargetExponent Format.binary64 M E accuracy = (em, target M E) ∧
      Approximates em (v / 2 ^ target M E) := by
  have shifted := stands.shiftRight (target M E - E).toNat
  have exponent : E + (target M E - E).toNat = target M E := by omega
  rw [div_div, ← zpow_natCast, ← zpow_add₀ two_ne_zero, exponent] at shifted
  exact ⟨_, Prod.ext rfl exponent, shifted⟩

/-- A mantissa that fits is not shifted. -/
theorem shift_canonical (fits : Canonical m q) :
    shiftToTargetExponent Format.binary64 m q .exact = (⟨m, false, false⟩, q) := by
  have amount : (target m q - q).toNat = 0 := by
    have exponent := target_eq m q
    have digits : m.log2 < 53 := by
      rcases eq_or_ne m 0 with rfl | some
      · decide
      · exact (Nat.log2_lt some).mpr fits.mantissa
    have lower := fits.lower
    omega
  have same : shiftToTargetExponent Format.binary64 m q .exact =
    (ExtendedMantissa.ofMantissaAndAccuracy m .exact >>> (target m q - q).toNat,
      q + (target m q - q).toNat) := rfl
  rw [same, amount, Nat.cast_zero, add_zero]
  rfl

/-- A mantissa that has grown by a digit in rounding is shifted once more. -/
theorem shift_carry (above : -1074 < q) :
    shiftToTargetExponent Format.binary64 (2 ^ 53) (q - 1) .exact =
      (⟨2 ^ 52, false, false⟩, q) := by
  have amount : (target (2 ^ 53) (q - 1) - (q - 1)).toNat = 1 := by
    have exponent := target_eq (2 ^ 53) (q - 1)
    rw [Nat.log2_two_pow] at exponent
    omega
  have same : shiftToTargetExponent Format.binary64 (2 ^ 53) (q - 1) .exact =
    (ExtendedMantissa.ofMantissaAndAccuracy (2 ^ 53) .exact >>>
      (target (2 ^ 53) (q - 1) - (q - 1)).toNat,
      q - 1 + (target (2 ^ 53) (q - 1) - (q - 1)).toNat) := rfl
  rw [same, amount, Nat.cast_one, sub_add_cancel]
  rfl

theorem roundWithAccuracy_eq {sign : Sign} {em : ExtendedMantissa} {exponent : Int}
    {round sticky : Bool} (positive : 0 < m)
    (first : shiftToTargetExponent Format.binary64 M E accuracy = (em, exponent))
    (second : shiftToTargetExponent Format.binary64 em.roundedMantissa exponent .exact =
      (⟨m, round, sticky⟩, q)) :
    roundWithAccuracy Format.binary64 sign M E accuracy = .finite sign m q positive := by
  unfold roundWithAccuracy
  rw [first]
  dsimp only
  rw [second]
  exact dif_neg positive.ne'

theorem div_lt_two_pow {T : Int} {k : Nat} (below : v < 2 ^ T) (exponent : T ≤ q + k) :
    v / 2 ^ q < 2 ^ k := by
  rw [div_lt_iff₀ (unit_pos q), ← zpow_natCast, ← zpow_add₀ two_ne_zero]
  exact below.trans_le (zpow_le_zpow_right₀ one_le_two (by omega))

/-- Shifting ends at the exponent of the double to which a number is rounded, or at the one below
it if this double is a power of two and the number is smaller. -/
theorem target_cases (fits : Canonical m q) (nearest : Nearest m (v / 2 ^ q))
    (narrow : m = 2 ^ 52 → -1074 < q → (m : ℚ) - 1 / 4 ≤ v / 2 ^ q) {T : Int}
    (least : -1074 ≤ T) (below : v < 2 ^ (T + 53)) (above : T = -1074 ∨ 2 ^ (T + 52) ≤ v) :
    T = q ∨ T = q - 1 ∧ m = 2 ^ 52 ∧ -1074 < q := by
  have within : T ≤ q := by
    rcases above with rfl | reached
    · exact fits.lower
    · have exponents := (zpow_lt_zpow_iff_right₀ one_lt_two).mp
        (reached.trans_lt (nearest.lt_two_pow fits))
      omega
  rcases eq_or_ne T q with same | other
  · exact .inl same
  · have smaller : T < q := lt_of_le_of_ne within other
    have long : 2 ^ 52 ≤ m := fits.normal.resolve_right (by omega)
    have lower : v / 2 ^ q < 2 ^ 52 := div_lt_two_pow below (by omega)
    have power : m = 2 ^ 52 := by
      have close : (m : ℚ) < 2 ^ 52 + 1 := by linarith [nearest.lower]
      have next : m < 2 ^ 52 + 1 := by exact_mod_cast close
      omega
    refine .inr ⟨?_, power, by omega⟩
    have near := narrow power (by omega)
    by_contra far
    have half : v / 2 ^ q < 2 ^ 51 := div_lt_two_pow below (by omega)
    rw [power] at near
    norm_num at near half
    linarith

/-- A number in the neighbourhood of a double is rounded to this double, from a mantissa that has
enough digits. -/
theorem round_of_holds {sign : Sign} (positive : 0 < m) (fits : Canonical m q)
    (holds : (Neighbourhood.ofBinary m q).holds v = true)
    (stands : Approximates (.ofMantissaAndAccuracy M accuracy) (v / 2 ^ E))
    (placed : E ≤ target M E) :
    roundWithAccuracy Format.binary64 sign M E accuracy = .finite sign m q positive := by
  obtain ⟨nearest, narrow⟩ := nearest_of_holds holds
  obtain ⟨below, above⟩ := target_bounds stands placed
  obtain ⟨em, first, shifted⟩ := shift_stands stands placed
  have least : -1074 ≤ target M E := by
    rw [target_eq]
    exact le_max_right _ _
  obtain same | ⟨same, power, normal⟩ := target_cases fits nearest narrow least below above
  · rw [same] at first shifted
    obtain rfl : em.roundedMantissa = m := shifted.nearest.unique nearest
    exact roundWithAccuracy_eq positive first (shift_canonical fits)
  · -- Below the power of two doubles lie twice as close, so the mantissa becomes a digit longer.
    subst power
    rw [same] at first shifted below
    have doubled : v / 2 ^ (q - 1) = 2 * (v / 2 ^ q) := by
      rw [zpow_sub₀ two_ne_zero, zpow_one]
      field_simp
    have carried : Nearest (2 ^ 53) (v / 2 ^ (q - 1)) := by
      have lower := narrow rfl normal
      have upper : v / 2 ^ q < 2 ^ 52 := div_lt_two_pow below (by omega)
      rw [doubled]
      push_cast at lower ⊢
      refine ⟨by linarith, by linarith, fun odd => absurd odd (by decide)⟩
    have rounded : em.roundedMantissa = 2 ^ 53 := shifted.nearest.unique carried
    exact roundWithAccuracy_eq positive first (rounded ▸ shift_carry normal)

end Round

end MatrixCalculator.Double
