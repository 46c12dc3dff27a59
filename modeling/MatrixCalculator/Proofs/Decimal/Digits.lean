import MatrixCalculator.Decimal.Fixed
import MatrixCalculator.Text.DecimalDigit
import Mathlib.Tactic.Ring

/-! Rows of decimal digits and the numbers that they denote. Zeros in front change nothing, zeros
behind multiply by powers of ten, and the digits of a number denote it. -/
namespace MatrixCalculator.Decimal

open MatrixCalculator.Text

variable {c : Char} {cs front back : List Char} {n : Nat}

def AllDigits (cs : List Char) : Prop :=
  ∀ c ∈ cs, c.isDigit = true

theorem AllDigits.append (first : AllDigits front) (second : AllDigits back) :
    AllDigits (front ++ back) := fun c member =>
  (List.mem_append.mp member).elim (first c) (second c)

theorem allDigits_zeros (k : Nat) : AllDigits (List.replicate k '0') := fun c member => by
  rw [List.eq_of_mem_replicate member]
  rfl

theorem AllDigits.of_append (digits : AllDigits (front ++ back)) :
    AllDigits front ∧ AllDigits back :=
  ⟨fun c member => digits c (List.mem_append_left _ member),
    fun c member => digits c (List.mem_append_right _ member)⟩

theorem digitValue?_of_isDigit (digit : c.isDigit = true) :
    digitValue? c = some (c.toNat - '0'.toNat) := by
  have bounds : 0x0030 ≤ c.toNat ∧ c.toNat < 0x0030 + 10 := by
    simp only [Char.isDigit, ge_iff_le, Bool.and_eq_true, decide_eq_true_eq,
      UInt32.le_iff_toNat_le] at digit
    exact ⟨digit.1, Nat.lt_succ_of_le digit.2⟩
  simp [digitValue?, digitZeros, bounds]

theorem isDecimalDigit_of_isDigit (digit : c.isDigit = true) : isDecimalDigit c = true := by
  rw [isDecimalDigit, digitValue?_of_isDigit digit]
  rfl

theorem foldl_digits (digits : AllDigits cs) (total : Nat) :
    cs.foldl (fun total c => 10 * total + (digitValue? c).getD 0) total =
      Nat.ofDigitChars 10 cs total := by
  unfold Nat.ofDigitChars
  induction cs generalizing total with
  | nil => rfl
  | cons c cs ih =>
    obtain ⟨digit, others⟩ := List.forall_mem_cons.mp digits
    rw [List.foldl_cons, List.foldl_cons, digitValue?_of_isDigit digit]
    exact ih others _

theorem digitsValue_eq (digits : AllDigits cs) : digitsValue cs = Nat.ofDigitChars 10 cs 0 :=
  foldl_digits digits 0

theorem digitsValue_zeros_append (digits : AllDigits cs) (k : Nat) :
    digitsValue (List.replicate k '0' ++ cs) = digitsValue cs := by
  rw [digitsValue_eq ((allDigits_zeros k).append digits), digitsValue_eq digits,
    Nat.ofDigitChars_append, Nat.ofDigitChars_replicate_zero, Nat.mul_zero]

theorem digitsValue_append_zeros (digits : AllDigits cs) (k : Nat) :
    digitsValue (cs ++ List.replicate k '0') = 10 ^ k * digitsValue cs := by
  rw [digitsValue_eq (digits.append (allDigits_zeros k)), digitsValue_eq digits,
    Nat.ofDigitChars_append, Nat.ofDigitChars_replicate_zero]

theorem digitsValue_append (first : AllDigits front) (second : AllDigits back) :
    digitsValue (front ++ back) = 10 ^ back.length * digitsValue front + digitsValue back := by
  rw [digitsValue_eq (first.append second), digitsValue_eq first, digitsValue_eq second,
    Nat.ofDigitChars_append, Nat.ofDigitChars_eq_ofDigitChars_zero]

theorem digitsValue_eq_zero_iff (digits : AllDigits cs) :
    digitsValue cs = 0 ↔ ∀ c ∈ cs, c = '0' := by
  induction cs with
  | nil => exact iff_of_true rfl (by simp)
  | cons c cs ih =>
    obtain ⟨digit, others⟩ := List.forall_mem_cons.mp digits
    have first : AllDigits [c] := List.forall_mem_singleton.mpr digit
    have parts := digitsValue_append first others
    have leading : digitsValue [c] = 0 ↔ c = '0' := by
      simp only [Char.isDigit, ge_iff_le, Bool.and_eq_true, decide_eq_true_eq,
        UInt32.le_iff_toNat_le] at digit
      have least : '0'.toNat ≤ c.toNat := digit.1
      rw [digitsValue_eq first, Nat.ofDigitChars_cons, Nat.ofDigitChars_nil, ← Char.toNat_inj]
      omega
    rw [List.forall_mem_cons, ← ih others, ← leading, ← List.singleton_append, parts,
      Nat.add_eq_zero_iff, Nat.mul_eq_zero, or_iff_right (Nat.pow_pos (by decide)).ne']

theorem digitsValue_lt (cs : List Char) : digitsValue cs < 10 ^ cs.length := by
  have grows (total : Nat) :
      cs.foldl (fun total c => 10 * total + (digitValue? c).getD 0) total <
        (total + 1) * 10 ^ cs.length := by
    induction cs generalizing total with
    | nil => simp
    | cons c cs ih =>
      have digit : (digitValue? c).getD 0 < 10 := by
        cases value : digitValue? c with
        | none => decide
        | some d => exact digitValue?_lt_ten value
      refine Nat.lt_of_lt_of_le (ih _) ?_
      rw [List.length_cons, Nat.pow_succ', ← Nat.mul_assoc]
      refine Nat.mul_le_mul_right _ ?_
      dsimp only
      omega
  exact Nat.lt_of_lt_of_le (grows 0) (by omega)

section OfNat

theorem allDigits_toDigits (n : Nat) : AllDigits (Nat.toDigits 10 n) := fun _ =>
  Nat.isDigit_of_mem_toDigits (by decide) (by decide)

theorem digitsValue_toDigits (n : Nat) : digitsValue (Nat.toDigits 10 n) = n :=
  (digitsValue_eq (allDigits_toDigits n)).trans (Nat.ofDigitChars_toDigits (by decide) (by decide))

theorem allDigits_padded (width n : Nat) : AllDigits (padded width n) :=
  (allDigits_zeros _).append (allDigits_toDigits n)

theorem digitsValue_padded (width n : Nat) : digitsValue (padded width n) = n :=
  (digitsValue_zeros_append (allDigits_toDigits n) _).trans (digitsValue_toDigits n)

theorem length_padded {width : Nat} (fits : n < 10 ^ width) (some : 0 < width) :
    (padded width n).length = width := by
  have short := (Nat.length_toDigits_le_iff (by decide) some).mpr fits
  rw [padded, List.length_append, List.length_replicate]
  omega

theorem padded_ne_nil (width n : Nat) : padded width n ≠ [] := by
  simp [padded]

/-- A positive number is written without leading zeros. -/
theorem exists_cons_toDigits (positive : 0 < n) :
    ∃ c cs, Nat.toDigits 10 n = c :: cs ∧ c ≠ '0' := by
  induction n using Nat.strongRecOn with
  | ind n ih =>
    rw [Nat.toDigits_eq_if (by decide)]
    split
    · next small =>
      refine ⟨_, _, rfl, ?_⟩
      have digits : ∀ m < 10, 0 < m → Nat.digitChar m ≠ '0' := by decide
      exact digits n small positive
    · next large =>
      obtain ⟨c, cs, front, leads⟩ := ih (n / 10) (by omega) (by omega)
      exact ⟨c, cs ++ [(n % 10).digitChar], by rw [front, List.cons_append], leads⟩

theorem lt_pow_length_toDigits (n : Nat) : n < 10 ^ (Nat.toDigits 10 n).length :=
  (Nat.length_toDigits_le_iff (by decide) Nat.length_toDigits_pos).mp (Nat.le_refl _)

theorem pow_length_toDigits_le (some : 0 < n) : 10 ^ ((Nat.toDigits 10 n).length - 1) ≤ n := by
  rcases Nat.eq_zero_or_pos ((Nat.toDigits 10 n).length - 1) with none | more
  · rw [none]
    exact some
  · have short : ¬(Nat.toDigits 10 n).length ≤ (Nat.toDigits 10 n).length - 1 := by omega
    rw [Nat.length_toDigits_le_iff (by decide) more] at short
    exact Nat.le_of_not_lt short

end OfNat
end MatrixCalculator.Decimal
