import MatrixCalculator.Decimal.Literal
import MatrixCalculator.Decimal.Shortest
import MatrixCalculator.Proofs.Decimal.Digits
import Mathlib.Algebra.Order.Field.Rat
import Mathlib.Tactic.NormNum

/-! The parts of a decimal text: digits before and behind the point, and an exponent. All three ways
to lay out a number have these parts and denote it, and a literal with these parts is read by its
digits and its exponent. -/
namespace MatrixCalculator.Decimal

open MatrixCalculator.Text

variable {front back : List Char}

/-- A point with digits behind it, and nothing without digits. -/
def fractionPart : List Char → List Char
  | [] => []
  | digits => '.' :: digits

def exponentPart : Option Int → List Char
  | none => []
  | some exponent => 'e' :: (if exponent < 0 then '-' else '+') :: padded 2 exponent.natAbs

structure Layout where
  whole : List Char
  fraction : List Char
  exponent : Option Int

namespace Layout

def text (layout : Layout) : List Char :=
  layout.whole ++ (fractionPart layout.fraction ++ exponentPart layout.exponent)

/-- No superfluous zeros stand in front, and the text is not one of a whole number. -/
structure WellFormed (layout : Layout) : Prop where
  whole : AllDigits layout.whole
  fraction : AllDigits layout.fraction
  leads : ∃ c cs, layout.whole = c :: cs ∧ (c = '0' → cs = [])
  fractional : layout.fraction ≠ [] ∨ layout.exponent ≠ none

/-- The number of all the digits, and the exponent that belongs to it. -/
def number (layout : Layout) : Number :=
  ⟨digitsValue (layout.whole ++ layout.fraction),
    layout.exponent.getD 0 - layout.fraction.length⟩

end Layout

section Reading

theorem takeWhile_append_of_stops {p : Char → Bool} (all : ∀ c ∈ front, p c = true)
    (stops : ∀ c, back.head? = some c → p c = false) : (front ++ back).takeWhile p = front := by
  rw [List.takeWhile_append_of_pos all]
  cases back with
  | nil => exact List.append_nil _
  | cons c back => rw [List.takeWhile_cons, stops c rfl, if_neg (by decide), List.append_nil]

theorem dropWhile_append_of_stops {p : Char → Bool} (all : ∀ c ∈ front, p c = true)
    (stops : ∀ c, back.head? = some c → p c = false) : (front ++ back).dropWhile p = back := by
  rw [List.dropWhile_append_of_pos all]
  cases back with
  | nil => rfl
  | cons c back => rw [List.dropWhile_cons, stops c rfl, if_neg (by decide)]

theorem head_exponentPart {exponent : Option Int} {c : Char}
    (first : (exponentPart exponent).head? = some c) : c = 'e' := by
  cases exponent with
  | none => cases first
  | some exponent => exact (Option.some.inj first).symm

theorem head_fractionPart {fraction : List Char} {exponent : Option Int} {c : Char}
    (first : (fractionPart fraction ++ exponentPart exponent).head? = some c) :
    c = '.' ∨ c = 'e' := by
  cases fraction with
  | nil => exact .inr (head_exponentPart first)
  | cons digit fraction => exact .inl (Option.some.inj first).symm

theorem exponentValue_exponentPart (exponent : Option Int) :
    exponentValue (exponentPart exponent) = exponent.getD 0 := by
  cases exponent with
  | none => rfl
  | some exponent =>
    rw [exponentPart]
    split
    · next negative =>
      change -(digitsValue (padded 2 exponent.natAbs) : Int) = exponent
      rw [digitsValue_padded]
      omega
    · next positive =>
      change (digitsValue (padded 2 exponent.natAbs) : Int) = exponent
      rw [digitsValue_padded]
      omega

/-- A literal is read by its digits and its exponent. -/
theorem readDouble_text {layout : Layout} (formed : layout.WellFormed) :
    readDouble layout.text = nearestDouble layout.number.digits layout.number.exponent := by
  obtain ⟨whole, fraction, exponent⟩ := layout
  have decimal {digits : List Char} (all : AllDigits digits) :
      ∀ c ∈ digits, isDecimalDigit c = true :=
    fun c member => isDecimalDigit_of_isDigit (all c member)
  have stops (c : Char) (first : (fractionPart fraction ++ exponentPart exponent).head? = some c) :
      isDecimalDigit c = false := by
    rcases head_fractionPart first with rfl | rfl <;> decide
  have ends (c : Char) (first : (exponentPart exponent).head? = some c) :
      isDecimalDigit c = false := by
    rw [head_exponentPart first]
    decide
  simp only [readDouble, Layout.text, Layout.number,
    takeWhile_append_of_stops (decimal formed.whole) stops,
    dropWhile_append_of_stops (decimal formed.whole) stops]
  cases fraction with
  | nil =>
    have value := exponentValue_exponentPart exponent
    simp only [fractionPart, List.nil_append]
    cases exponent with
    | none => rfl
    | some exponent =>
      rw [← value]
      rfl
  | cons digit digits =>
    simp only [fractionPart, List.cons_append]
    rw [← List.cons_append, takeWhile_append_of_stops (decimal formed.fraction) ends,
      dropWhile_append_of_stops (decimal formed.fraction) ends, exponentValue_exponentPart]

end Reading

section Laying

variable {x : Number}

namespace Number

/-- The digits without the zeros at their end. -/
def significant (x : Number) : List Char :=
  ((Nat.toDigits 10 x.digits).reverse.dropWhile (· == '0')).reverse

/-- How many of the digits stand before the point. -/
def point (x : Number) : Int :=
  (Nat.toDigits 10 x.digits).length + x.exponent

theorem exists_toDigits_eq (x : Number) :
    ∃ k, Nat.toDigits 10 x.digits = x.significant ++ List.replicate k '0' := by
  let zeros := (Nat.toDigits 10 x.digits).reverse.takeWhile (· == '0')
  have same : zeros = List.replicate zeros.length '0' := by
    refine List.eq_replicate_iff.mpr ⟨rfl, fun c member => ?_⟩
    exact beq_iff_eq.mp (List.all_eq_true.mp List.all_takeWhile c member)
  refine ⟨zeros.length, ?_⟩
  have parts : zeros ++ (Nat.toDigits 10 x.digits).reverse.dropWhile (· == '0') =
    (Nat.toDigits 10 x.digits).reverse := List.takeWhile_append_dropWhile
  calc Nat.toDigits 10 x.digits = (Nat.toDigits 10 x.digits).reverse.reverse :=
        (List.reverse_reverse _).symm
    _ = x.significant ++ zeros.reverse := by rw [← parts, List.reverse_append]; rfl
    _ = x.significant ++ List.replicate zeros.length '0' := by
      rw [same, List.reverse_replicate, List.length_replicate]

theorem allDigits_significant (x : Number) : AllDigits x.significant := by
  obtain ⟨k, parts⟩ := x.exists_toDigits_eq
  exact (parts ▸ allDigits_toDigits x.digits).of_append.1

theorem exists_cons_significant (positive : 0 < x.digits) :
    ∃ c cs, x.significant = c :: cs ∧ c ≠ '0' := by
  obtain ⟨k, parts⟩ := x.exists_toDigits_eq
  obtain ⟨c, cs, first, leads⟩ := exists_cons_toDigits positive
  rw [parts] at first
  cases shape : x.significant with
  | nil =>
    rw [shape, List.nil_append] at first
    have zero : c ∈ List.replicate k '0' := by rw [first]; exact List.mem_cons_self
    exact absurd (List.eq_of_mem_replicate zero) leads
  | cons d ds =>
    rw [shape] at first
    exact ⟨d, ds, rfl, (List.cons.inj first).1 ▸ leads⟩

/-- The significant digits denote the number if their last place is right. -/
theorem value_significant (x : Number) :
    (digitsValue x.significant : ℚ) * 10 ^ (x.point - x.significant.length) =
      x.digits * 10 ^ x.exponent := by
  obtain ⟨k, parts⟩ := x.exists_toDigits_eq
  have total : x.digits = 10 ^ k * digitsValue x.significant := by
    rw [← digitsValue_append_zeros x.allDigits_significant, ← parts, digitsValue_toDigits]
  have places : x.point - x.significant.length = k + x.exponent := by
    rw [point, parts, List.length_append, List.length_replicate]
    omega
  conv => rhs; rw [total]
  rw [places, zpow_add₀ (by norm_num), zpow_natCast, Nat.cast_mul, Nat.cast_pow, Nat.cast_ofNat]
  ring

def layout (x : Number) : Layout :=
  if x.point ≤ 0 ∧ -4 < x.point then
    ⟨['0'], List.replicate (-x.point).toNat '0' ++ x.significant, none⟩
  else if 0 < x.point ∧ x.point ≤ 16 then
    ⟨x.significant.take x.point.toNat ++
        List.replicate (x.point.toNat - x.significant.length) '0',
      if (x.significant.drop x.point.toNat).isEmpty then ['0']
      else x.significant.drop x.point.toNat, none⟩
  else ⟨x.significant.take 1, x.significant.drop 1, some (x.point - 1)⟩

end Number

theorem fractionPart_of_ne_nil {fraction : List Char} (some : fraction ≠ []) :
    fractionPart fraction = '.' :: fraction := by
  cases fraction with
  | nil => contradiction
  | cons c cs => rfl

theorem text_layout (positive : 0 < x.digits) : x.layout.text = x.text := by
  obtain ⟨c, cs, shape, -⟩ := Number.exists_cons_significant positive
  have some : x.significant ≠ [] := by rw [shape]; exact List.cons_ne_nil c cs
  unfold Number.text Number.layout
  change _ = if x.point ≤ 0 ∧ -4 < x.point then
      '0' :: '.' :: List.replicate (-x.point).toNat '0' ++ x.significant else _
  split
  · rw [Layout.text, fractionPart_of_ne_nil (by simp [some]), exponentPart, List.append_nil]
    rfl
  · change _ = if 0 < x.point ∧ x.point ≤ 16 then
        x.significant.take x.point.toNat ++
          List.replicate (x.point.toNat - x.significant.length) '0' ++
        '.' :: (if (x.significant.drop x.point.toNat).isEmpty then ['0']
          else x.significant.drop x.point.toNat) else _
    split
    · rw [Layout.text, fractionPart_of_ne_nil, exponentPart, List.append_nil]
      dsimp only
      split
      · exact List.cons_ne_nil _ _
      · next more => simpa using more
    · have same : ((Nat.toDigits 10 x.digits).reverse.dropWhile (· == '0')).reverse =
          x.significant := rfl
      rw [Layout.text, same, shape]
      cases cs <;> rfl

theorem wellFormed_layout (positive : 0 < x.digits) : x.layout.WellFormed := by
  have digits := x.allDigits_significant
  obtain ⟨c, cs, shape, leads⟩ := Number.exists_cons_significant positive
  have some : x.significant ≠ [] := by rw [shape]; exact List.cons_ne_nil c cs
  have zero : AllDigits ['0'] := allDigits_zeros 1
  have cut (k : Nat) : AllDigits (x.significant.take k) ∧ AllDigits (x.significant.drop k) :=
    (List.take_append_drop k x.significant ▸ digits).of_append
  unfold Number.layout
  split
  · refine ⟨zero, (allDigits_zeros _).append digits, ⟨'0', [], rfl, fun _ => rfl⟩, .inl ?_⟩
    simp [some]
  · split
    · next before =>
      refine ⟨(cut _).1.append (allDigits_zeros _), ?_, ?_, .inl ?_⟩
      · dsimp only
        split
        · exact zero
        · exact (cut _).2
      · obtain ⟨k, point⟩ : ∃ k, x.point.toNat = k + 1 := ⟨x.point.toNat - 1, by omega⟩
        dsimp only
        rw [shape, point]
        exact ⟨c, _, rfl, fun other => absurd other leads⟩
      · dsimp only
        split
        · exact List.cons_ne_nil _ _
        · next more => simpa using more
    · refine ⟨(cut 1).1, (cut 1).2, ⟨c, [], ?_, fun _ => rfl⟩, .inr (Option.some_ne_none _)⟩
      rw [shape]
      rfl

/-- A number and its parts have the same value. -/
theorem value_layout (positive : 0 < x.digits) :
    (x.layout.number.digits : ℚ) * 10 ^ x.layout.number.exponent = x.digits * 10 ^ x.exponent := by
  rw [← x.value_significant]
  have digits := x.allDigits_significant
  unfold Number.layout Layout.number
  split
  · next before =>
    have leading : digitsValue (['0'] ++ (List.replicate (-x.point).toNat '0' ++ x.significant)) =
        digitsValue x.significant := by
      rw [← List.append_assoc]
      exact digitsValue_zeros_append digits ((-x.point).toNat + 1)
    dsimp only
    rw [leading, List.length_append, List.length_replicate, Option.getD_none]
    congr 2
    omega
  · split
    · next before =>
      rcases Nat.lt_or_ge x.point.toNat x.significant.length with inside | outside
      · have none : x.point.toNat - x.significant.length = 0 := by omega
        have more : (x.significant.drop x.point.toNat).isEmpty = false := by
          rw [List.isEmpty_eq_false_iff, ← List.length_pos_iff, List.length_drop]
          omega
        dsimp only
        rw [none, List.replicate_zero, List.append_nil, more, if_neg (by decide),
          List.take_append_drop, List.length_drop, Option.getD_none]
        congr 2
        omega
      · have empty : x.significant.drop x.point.toNat = [] := List.drop_eq_nil_of_le outside
        have filled : digitsValue (x.significant ++
            List.replicate (x.point.toNat - x.significant.length) '0' ++ ['0']) =
            10 ^ (x.point.toNat - x.significant.length + 1) * digitsValue x.significant := by
          rw [List.append_assoc, ← digitsValue_append_zeros digits, List.replicate_succ']
        dsimp only
        rw [empty, List.isEmpty_nil, if_pos rfl, List.take_of_length_le outside, filled,
          Option.getD_none, Nat.cast_mul, mul_comm (_ : ℚ) (digitsValue x.significant : ℚ), mul_assoc,
          Nat.cast_pow, Nat.cast_ofNat, ← zpow_natCast, ← zpow_add₀ (by norm_num)]
        congr 2
        simp only [List.length_singleton]
        omega
    · obtain ⟨c, cs, shape, -⟩ := Number.exists_cons_significant positive
      have length : 0 < x.significant.length := by rw [shape]; exact Nat.succ_pos _
      dsimp only
      rw [List.take_append_drop, List.length_drop, Option.getD_some]
      congr 2
      omega

end Laying
end MatrixCalculator.Decimal
