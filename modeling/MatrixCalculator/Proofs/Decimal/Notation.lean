import MatrixCalculator.Proofs.Decimal.Layout
import MatrixCalculator.Proofs.Rounding.Nearest

/-! Plain decimal notation: an optional minus sign, digits, and a point with further digits. A
number that is written with a fixed number of places is read back with an error of at most half a
unit of the last place, and reads as zero exactly if it is that close to zero. -/
namespace MatrixCalculator.Decimal

open MatrixCalculator.Text

variable {places : Nat}

def unsigned (cs : List Char) : ℚ :=
  digitsValue (cs.filter (· != '.')) / 10 ^ ((cs.dropWhile (· != '.')).length - 1)

def denoted : List Char → ℚ
  | '-' :: cs => -unsigned cs
  | cs => unsigned cs

/-- A text in plain notation with so many digits behind the point. -/
structure Plain (places : Nat) where
  negative : Bool
  whole : List Char
  fraction : List Char
  leads : whole ≠ []
  digits : AllDigits (whole ++ fraction)
  length : fraction.length = places

namespace Plain

def size (d : Plain places) : List Char :=
  d.whole ++ fractionPart d.fraction

def text (d : Plain places) : List Char :=
  if d.negative then '-' :: d.size else d.size

def units (d : Plain places) : Nat :=
  digitsValue (d.whole ++ d.fraction)

section Reading

theorem filter_fractionPart (fraction : List Char) :
    (fractionPart fraction).filter (· != '.') = fraction.filter (· != '.') := by
  cases fraction with
  | nil => rfl
  | cons c cs => exact List.filter_cons_of_neg (by decide)

theorem length_dropWhile_fractionPart (fraction : List Char) :
    ((fractionPart fraction).dropWhile (· != '.')).length - 1 = fraction.length := by
  cases fraction <;> rfl

theorem ne_point {d : Plain places} {c : Char} (member : c ∈ d.whole ++ d.fraction) :
    (c != '.') = true := by
  have digit := d.digits c member
  exact bne_iff_ne.mpr fun point => absurd (point ▸ digit) (by decide)

theorem filter_size (d : Plain places) : d.size.filter (· != '.') = d.whole ++ d.fraction := by
  rw [size, List.filter_append, filter_fractionPart, ← List.filter_append]
  exact List.filter_eq_self.mpr fun c => ne_point

theorem mem_size (d : Plain places) (c : Char) :
    c ∈ d.whole ++ d.fraction ↔ c ∈ d.size ∧ c ≠ '.' := by
  rw [← d.filter_size, List.mem_filter, bne_iff_ne]

theorem unsigned_size (d : Plain places) : unsigned d.size = d.units / 10 ^ places := by
  have behind : (d.size.dropWhile (· != '.')).length - 1 = places := by
    rw [size, List.dropWhile_append_of_pos fun c member => ne_point (List.mem_append_left _ member),
      length_dropWhile_fractionPart, d.length]
  rw [unsigned, d.filter_size, behind, units]

theorem mem_text {d : Plain places} {c : Char} (member : c ∈ d.text) :
    c = '-' ∨ c = '.' ∨ c.isDigit = true := by
  have digit (inside : c ∈ d.size) : c = '.' ∨ c.isDigit = true :=
    or_iff_not_imp_left.mpr fun other => d.digits c ((d.mem_size c).mpr ⟨inside, other⟩)
  unfold text at member
  split at member
  · exact (List.mem_cons.mp member).imp_right digit
  · exact .inr (digit member)

theorem text_ne_nil (d : Plain places) : d.text ≠ [] := by
  unfold text
  split
  · exact List.cons_ne_nil _ _
  · exact List.append_ne_nil_of_left_ne_nil d.leads _

theorem head_size (d : Plain places) : d.size.head? ≠ some '-' := by
  obtain ⟨c, cs, shape⟩ := List.exists_cons_of_ne_nil d.leads
  have digit := d.digits c (List.mem_append_left _ (by rw [shape]; exact List.mem_cons_self))
  rw [size, shape]
  intro sign
  rw [Option.some.inj sign] at digit
  exact absurd digit (by decide)

theorem head_text (d : Plain places) : d.text.head? = some '-' ↔ d.negative = true := by
  unfold text
  split
  · next negative => simp [negative]
  · next positive => simp [positive, d.head_size]

theorem denoted_text (d : Plain places) :
    denoted d.text = (if d.negative then -1 else 1) * (d.units / 10 ^ places) := by
  rw [← d.unsigned_size, text]
  split
  · exact (neg_one_mul _).symm
  · rw [one_mul, denoted]
    intro cs shape
    exact d.head_size (congrArg List.head? shape)

theorem units_eq_zero_iff (d : Plain places) :
    d.units = 0 ↔ ∀ c ∈ d.size, c = '0' ∨ c = '.' := by
  rw [units, digitsValue_eq_zero_iff d.digits]
  constructor
  · intro zeros c inside
    exact or_iff_not_imp_right.mpr fun other => zeros c ((d.mem_size c).mpr ⟨inside, other⟩)
  · intro zeros c member
    obtain ⟨inside, other⟩ := (d.mem_size c).mp member
    exact (zeros c inside).resolve_right other

theorem denoted_eq_zero_iff (d : Plain places) : denoted d.text = 0 ↔ d.units = 0 := by
  have scale : (10 ^ places : ℚ) ≠ 0 := by positivity
  rw [denoted_text]
  split <;> simp [scale]

end Reading

section Writing

def ofUnits (negative : Bool) (places n : Nat) : Plain places where
  negative := negative
  whole := Nat.toDigits 10 (n / scaling places)
  fraction := if places = 0 then [] else padded places (n % scaling places)
  leads := List.ne_nil_of_length_pos Nat.length_toDigits_pos
  digits := by
    refine (allDigits_toDigits _).append ?_
    split
    · exact fun c member => absurd member List.not_mem_nil
    · exact allDigits_padded _ _
  length := by
    split
    · next none => exact none.symm
    · next some =>
      exact length_padded (Nat.mod_lt _ (Nat.pow_pos (by decide))) (Nat.pos_of_ne_zero some)

theorem size_ofUnits (negative : Bool) (places n : Nat) :
    (ofUnits negative places n).size = pointed places n := by
  unfold size ofUnits pointed
  dsimp only
  split
  · next none =>
    rw [none]
    exact (List.append_nil _).trans (congrArg (Nat.toDigits 10) (Nat.div_one n))
  · rw [fractionPart_of_ne_nil (padded_ne_nil _ _)]

theorem units_ofUnits (negative : Bool) (places n : Nat) :
    (ofUnits negative places n).units = n := by
  have length := (ofUnits negative places n).length
  have parts := (ofUnits negative places n).digits.of_append
  rw [units, digitsValue_append parts.1 parts.2, length]
  unfold ofUnits
  dsimp only
  rw [digitsValue_toDigits]
  split
  · next none =>
    subst none
    simp [scaling, digitsValue]
  · rw [digitsValue_padded]
    exact Nat.div_add_mod n (scaling places)

theorem text_ofUnits (negative : Bool) (places n : Nat) : (ofUnits negative places n).text =
    if negative then '-' :: pointed places n else pointed places n := by
  rw [text, size_ofUnits]
  rfl

theorem denoted_ofUnits (negative : Bool) (places n : Nat) :
    denoted (ofUnits negative places n).text =
      (if negative then -1 else 1) * (n / 10 ^ places) := by
  rw [denoted_text, units_ofUnits]
  rfl

end Writing
end Plain

section Numbers

variable (n : Int) (x : ℚ)

def plainInteger : Plain 0 :=
  .ofUnits (decide (n < 0)) 0 n.natAbs

theorem text_plainInteger : (plainInteger n).text = integer n := by
  rw [plainInteger, Plain.text_ofUnits, integer]
  simp [pointed]

theorem denoted_integer : denoted (integer n) = n := by
  rw [← text_plainInteger, plainInteger, Plain.denoted_ofUnits, pow_zero, div_one,
    Nat.cast_natAbs, Int.cast_abs]
  split
  · next negative =>
    rw [abs_of_neg (by simpa using negative), neg_one_mul, neg_neg]
  · next nonneg =>
    rw [abs_of_nonneg (by simpa using nonneg), one_mul]

def fixedUnits (places : Nat) : Nat :=
  Rounding.quotient (x.num.natAbs * scaling places) x.den

def plainFixed (places : Nat) : Plain places :=
  .ofUnits (decide (x.num < 0)) places (fixedUnits x places)

theorem text_plainFixed (places : Nat) : (plainFixed x places).text = fixed places x := by
  rw [plainFixed, Plain.text_ofUnits, fixed]
  simp [fixedUnits]

theorem cast_scaling (places : Nat) : (scaling places : ℚ) = 10 ^ places :=
  Nat.cast_pow 10 places

theorem abs_fixedUnits_sub_le (places : Nat) :
    |(fixedUnits x places : ℚ) - |x| * 10 ^ places| ≤ 1 / 2 := by
  have near := Rounding.abs_quotient_sub_le (x.num.natAbs * scaling places) x.den_pos
  rwa [Nat.cast_mul, mul_div_right_comm, Rounding.natAbs_num_div_den, cast_scaling] at near

/-- The last place is right up to half a unit. -/
theorem abs_denoted_fixed_sub_le (places : Nat) :
    |denoted (fixed places x) - x| ≤ 1 / 2 / 10 ^ places := by
  have scale : (0 : ℚ) < 10 ^ places := by positivity
  have size : |(fixedUnits x places / 10 ^ places : ℚ) - (|x|)| ≤ 1 / 2 / 10 ^ places := by
    rw [le_div_iff₀ scale, ← abs_of_pos scale, ← abs_mul, sub_mul, abs_of_pos scale,
      div_mul_cancel₀ _ scale.ne']
    exact abs_fixedUnits_sub_le x places
  rw [← text_plainFixed, plainFixed, Plain.denoted_ofUnits]
  split
  · next negative =>
    have below : x < 0 := by simpa using negative
    rw [abs_of_neg below, sub_neg_eq_add] at size
    rwa [neg_one_mul, ← neg_add', abs_neg]
  · next nonneg =>
    have above : 0 ≤ x := by simpa using nonneg
    rw [abs_of_nonneg above] at size
    rwa [one_mul]

/-- All places are zeros exactly if the number is no larger than half a unit of the last one. -/
theorem fixedUnits_eq_zero_iff (places : Nat) :
    fixedUnits x places = 0 ↔ |x| * 10 ^ places ≤ 1 / 2 := by
  rw [fixedUnits, Rounding.quotient_eq_zero_iff _ x.den_pos, Nat.cast_mul, mul_div_right_comm,
    Rounding.natAbs_num_div_den, cast_scaling]

end Numbers

end MatrixCalculator.Decimal
