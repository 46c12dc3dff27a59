import MatrixCalculator.Proofs.Decimal.Layout
import MatrixCalculator.Proofs.Language.Lexing
import Mathlib.Computability.Language

/-! The patterns of the calculator language as formal languages. What the tokenizer finds at a
place is the longest word of its pattern there, and where it finds nothing no pattern has a
word. -/
namespace MatrixCalculator.Language

open MatrixCalculator.Text
open scoped Computability

def oneOf (p : Char → Bool) : Language Char := {w | ∃ c, p c = true ∧ w = [c]}

def digitRow : Language Char := oneOf isDecimalDigit * (oneOf isDecimalDigit)∗

/-- Digits with a point behind or between them, or behind a point. -/
def mantissa : Language Char :=
  digitRow * (oneOf (· == '.') + 1) * (oneOf isDecimalDigit)∗ + oneOf (· == '.') * digitRow

def exponentPart : Language Char :=
  oneOf (fun c => c == 'e' || c == 'E') * (oneOf isSign + 1) * digitRow

def numeral : Language Char := mantissa * (exponentPart + 1)

def identifier : Language Char := oneOf isNameStart * (oneOf isNamePart)∗

def Lexeme.pattern : Lexeme → Language Char
  | .number _ => numeral
  | .name _ => identifier
  | .symbol _ => oneOf (symbols.contains ·)
  | .lineBreak => oneOf (· == '\n')

structure IsLongest (l : Language Char) (word text : List Char) : Prop where
  mem : word ∈ l
  begins : word <+: text
  longest : ∀ other ∈ l, other <+: text → other.length ≤ word.length

variable {p : Char → Bool} {w cs rest : List Char} {c : Char}

theorem mem_kstar_oneOf : w ∈ (oneOf p)∗ ↔ ∀ c ∈ w, p c = true := by
  rw [Language.mem_kstar]
  constructor
  · rintro ⟨parts, rfl, words⟩ c member
    obtain ⟨part, inside, within⟩ := List.mem_flatten.mp member
    obtain ⟨d, holds, rfl⟩ := words part inside
    rw [List.mem_singleton.mp within]
    exact holds
  · intro all
    refine ⟨w.map ([·]), by simp [← List.flatMap_def], ?_⟩
    intro part inside
    obtain ⟨c, member, rfl⟩ := List.mem_map.mp inside
    exact ⟨c, all c member, rfl⟩

theorem mem_digitRow : w ∈ digitRow ↔ w ≠ [] ∧ ∀ c ∈ w, isDecimalDigit c = true := by
  rw [digitRow, Language.mem_mul]
  constructor
  · rintro ⟨_, ⟨c, digit, rfl⟩, more, digits, rfl⟩
    exact ⟨List.cons_ne_nil _ _, List.forall_mem_cons.mpr ⟨digit, mem_kstar_oneOf.mp digits⟩⟩
  · rintro ⟨some, digits⟩
    obtain ⟨c, more, rfl⟩ := List.exists_cons_of_ne_nil some
    obtain ⟨digit, digits⟩ := List.forall_mem_cons.mp digits
    exact ⟨[c], ⟨c, digit, rfl⟩, more, mem_kstar_oneOf.mpr digits, rfl⟩

theorem mem_identifier :
    w ∈ identifier ↔ ∃ c more, w = c :: more ∧ isNameStart c = true ∧
      ∀ d ∈ more, isNamePart d = true := by
  rw [identifier, Language.mem_mul]
  constructor
  · rintro ⟨_, ⟨c, starts, rfl⟩, more, parts, rfl⟩
    exact ⟨c, more, rfl, starts, mem_kstar_oneOf.mp parts⟩
  · rintro ⟨c, more, rfl, starts, parts⟩
    exact ⟨[c], ⟨c, starts, rfl⟩, more, mem_kstar_oneOf.mpr parts, rfl⟩

theorem mem_mantissa : w ∈ mantissa ↔
    (∃ whole fraction, (whole ≠ [] ∨ fraction ≠ []) ∧ (∀ c ∈ whole, isDecimalDigit c = true) ∧
      (∀ c ∈ fraction, isDecimalDigit c = true) ∧ w = whole ++ '.' :: fraction) ∨
    w ≠ [] ∧ ∀ c ∈ w, isDecimalDigit c = true := by
  rw [mantissa, Language.mem_add]
  constructor
  · rintro (⟨_, ⟨whole, row, point, pointed, rfl⟩, fraction, digits, rfl⟩ |
      ⟨_, ⟨c, point, rfl⟩, fraction, row, rfl⟩)
    · obtain ⟨some, all⟩ := mem_digitRow.mp row
      have digits := mem_kstar_oneOf.mp digits
      obtain ⟨c, same, rfl⟩ | rfl := pointed
      · cases beq_iff_eq.mp same
        exact .inl ⟨whole, fraction, .inl some, all, digits, by simp⟩
      · dsimp only
        rw [List.append_nil]
        exact .inr ⟨by simp [some], List.forall_mem_append.mpr ⟨all, digits⟩⟩
    · obtain ⟨some, all⟩ := mem_digitRow.mp row
      cases beq_iff_eq.mp point
      exact .inl ⟨[], fraction, .inr some, by simp, all, rfl⟩
  · rintro (⟨whole, fraction, some, all, digits, rfl⟩ | ⟨some, all⟩)
    · by_cases none : whole = []
      · subst none
        have row := mem_digitRow.mpr ⟨some.resolve_left (fun absent => absent rfl), digits⟩
        exact .inr ⟨['.'], ⟨'.', rfl, rfl⟩, fraction, row, rfl⟩
      · refine .inl ⟨whole ++ ['.'], ?_, fraction, mem_kstar_oneOf.mpr digits, by simp⟩
        exact ⟨whole, mem_digitRow.mpr ⟨none, all⟩, ['.'], .inl ⟨'.', rfl, rfl⟩, rfl⟩
    · refine .inl ⟨w, ?_, [], mem_kstar_oneOf.mpr (by simp), by simp⟩
      exact ⟨w, mem_digitRow.mpr ⟨some, all⟩, [], .inr rfl, by simp⟩

theorem mem_exponentPart : w ∈ exponentPart ↔
    ∃ mark sign digits, (mark = 'e' ∨ mark = 'E') ∧
      (sign = [] ∨ ∃ s, isSign s = true ∧ sign = [s]) ∧
      digits ≠ [] ∧ (∀ c ∈ digits, isDecimalDigit c = true) ∧ w = mark :: (sign ++ digits) := by
  rw [exponentPart]
  constructor
  · rintro ⟨_, ⟨_, ⟨mark, marked, rfl⟩, sign, signed, rfl⟩, digits, row, rfl⟩
    obtain ⟨some, all⟩ := mem_digitRow.mp row
    have marked : mark = 'e' ∨ mark = 'E' := by simpa using marked
    refine ⟨mark, sign, digits, marked, ?_, some, all, by simp⟩
    exact signed.symm.imp_left fun none => none
  · rintro ⟨mark, sign, digits, marked, signed, some, all, rfl⟩
    refine ⟨mark :: sign, ⟨[mark], ⟨mark, by simpa using marked, rfl⟩, sign, ?_, rfl⟩, digits,
      mem_digitRow.mpr ⟨some, all⟩, by simp⟩
    exact signed.symm.imp_right fun none => none

theorem exponentPart_begins {c : Char} {more : List Char} (member : c :: more ∈ exponentPart) :
    c = 'e' ∨ c = 'E' := by
  obtain ⟨mark, _, _, marked, _, _, _, same⟩ := mem_exponentPart.mp member
  rw [(List.cons.inj same).1]
  exact marked

/-- No exponent goes on with the digits or the point in front of it. -/
theorem exponent_stops {exponent : List Char} (optional : exponent ∈ exponentPart + 1) :
    (∀ c, exponent.head? = some c → isDecimalDigit c = false) ∧
      ∀ more, exponent ≠ '.' :: more := by
  rcases optional with present | rfl
  · cases exponent with
    | nil =>
      obtain ⟨_, _, _, _, _, _, _, same⟩ := mem_exponentPart.mp present
      contradiction
    | cons mark more =>
      refine ⟨fun c same => ?_, fun more same => ?_⟩
      · cases same
        rcases exponentPart_begins present with rfl | rfl <;> rfl
      · cases (List.cons.inj same).1
        rcases exponentPart_begins present with same | same <;> exact absurd same (by decide)
  · exact ⟨fun c same => (by contradiction), fun more same => by contradiction⟩

theorem mantissaText_of_mem {exponent : List Char} (member : w ∈ mantissa)
    (optional : exponent ∈ exponentPart + 1) : mantissaText (w ++ exponent) = w := by
  obtain ⟨stops, pointless⟩ := exponent_stops optional
  rcases mem_mantissa.mp member with ⟨whole, fraction, some, all, digits, rfl⟩ | ⟨some, all⟩
  · have point : ∀ c, ('.' :: (fraction ++ exponent)).head? = Option.some c →
        isDecimalDigit c = false := by
      intro c same
      cases same
      rfl
    rw [List.append_assoc, List.cons_append,
      mantissaText_point (Decimal.dropWhile_append_of_stops all point),
      Decimal.takeWhile_append_of_stops all point,
      Decimal.takeWhile_append_of_stops digits stops, if_neg]
    exact not_and_or.mpr some
  · rw [mantissaText_plain, Decimal.takeWhile_append_of_stops all stops]
    rw [Decimal.dropWhile_append_of_stops all stops]
    exact pointless

theorem exponentText_of_mem {exponent : List Char} (optional : exponent ∈ exponentPart + 1) :
    exponentText exponent = exponent := by
  rcases optional with present | rfl
  · obtain ⟨mark, sign, digits, marked, signed, some, all, rfl⟩ := mem_exponentPart.mp present
    have unsigned {c : Char} (digit : isDecimalDigit c = true) : isSign c = false := by
      cases signs : isSign c with
      | false => rfl
      | true =>
        rw [isSign, Bool.or_eq_true, beq_iff_eq, beq_iff_eq] at signs
        rcases signs with rfl | rfl <;> contradiction
    have sign_eq : ((sign ++ digits).take 1).filter isSign = sign := by
      obtain rfl | ⟨s, holds, rfl⟩ := signed
      · obtain ⟨c, more, rfl⟩ := List.exists_cons_of_ne_nil some
        simp [unsigned (all c List.mem_cons_self)]
      · simp [holds]
    have digits_eq : digits.takeWhile isDecimalDigit = digits := by
      simpa using @List.takeWhile_append_of_pos _ isDecimalDigit digits [] all
    rw [exponentText_cons]
    simp only [sign_eq, List.drop_left, digits_eq]
    exact if_pos ⟨marked, some⟩
  · rfl

/-- A numeral is what is read where it stands alone. -/
theorem numeralText_of_mem (member : w ∈ numeral) : numeralText w = w := by
  obtain ⟨front, whole, exponent, optional, rfl⟩ := member
  have read := mantissaText_of_mem whole optional
  have some : front ≠ [] := by
    rcases mem_mantissa.mp whole with ⟨_, _, _, _, _, rfl⟩ | ⟨some, _⟩
    · simp
    · exact some
  dsimp only
  rw [numeralText_eq, read, if_neg some, List.drop_left, exponentText_of_mem optional]

theorem mantissaText_mem (some : mantissaText cs ≠ []) : mantissaText cs ∈ mantissa := by
  have digits (text : List Char) : ∀ c ∈ text.takeWhile isDecimalDigit, isDecimalDigit c = true :=
    List.all_eq_true.mp List.all_takeWhile
  by_cases point : ∃ more, cs.dropWhile isDecimalDigit = '.' :: more
  · obtain ⟨more, point⟩ := point
    rw [mantissaText_point point] at some ⊢
    split
    · next none =>
      rw [if_pos none] at some
      contradiction
    · next some =>
      exact mem_mantissa.mpr (.inl ⟨_, _, not_and_or.mp some, digits cs, digits more, rfl⟩)
  · rw [mantissaText_plain (not_exists.mp point)] at some ⊢
    exact mem_mantissa.mpr (.inr ⟨some, digits cs⟩)

theorem exponentText_mem (cs : List Char) : exponentText cs ∈ exponentPart + 1 := by
  cases cs with
  | nil => exact .inr rfl
  | cons mark more =>
    rw [exponentText_cons]
    dsimp only
    split
    · next taken =>
      refine .inl (mem_exponentPart.mpr ⟨mark, _, _, taken.1, ?_, taken.2,
        List.all_eq_true.mp List.all_takeWhile, rfl⟩)
      cases more with
      | nil => exact .inl rfl
      | cons s rest =>
        cases signs : isSign s with
        | false => exact .inl (by simp [signs])
        | true => exact .inr ⟨s, signs, by simp [signs]⟩
    · exact .inr rfl

theorem numeralText_mem (some : numeralText cs ≠ []) : numeralText cs ∈ numeral := by
  rw [numeralText_eq] at some ⊢
  split
  · next none =>
    rw [if_pos none] at some
    contradiction
  · next some => exact ⟨_, mantissaText_mem some, _, exponentText_mem _, rfl⟩

theorem numeral_ne_nil (member : w ∈ numeral) : w ≠ [] := by
  rintro rfl
  obtain ⟨front, whole, exponent, _, same⟩ := member
  obtain ⟨rfl, _⟩ := List.append_eq_nil_iff.mp same
  rcases mem_mantissa.mp whole with ⟨_, _, _, _, _, same⟩ | ⟨some, _⟩
  · simp at same
  · exact some rfl

/-- No numeral at the start of a text is longer than the one that is read. -/
theorem length_le_numeralText (member : w ∈ numeral) (begins : w <+: cs) :
    w.length ≤ (numeralText cs).length := by
  obtain ⟨back, rfl⟩ := begins
  rcases Nat.le_total (numeralText (w ++ back)).length w.length with shorter | longer
  · rw [numeralText_of_inside shorter, numeralText_of_mem member]
  · exact longer

theorem takeWhile_longest {front : List Char} (all : ∀ c ∈ front, p c = true)
    (begins : front <+: cs) : front.length ≤ (cs.takeWhile p).length := by
  obtain ⟨back, rfl⟩ := begins
  rw [List.takeWhile_append_of_pos all, List.length_append]
  exact Nat.le_add_right _ _

theorem isLongest_numeralText (some : numeralText cs ≠ []) :
    IsLongest numeral (numeralText cs) cs :=
  ⟨numeralText_mem some, numeralText_isPrefix cs, fun _ => length_le_numeralText⟩

theorem isLongest_identifier (starts : isNameStart c = true) :
    IsLongest identifier (c :: rest.takeWhile isNamePart) (c :: rest) where
  mem := mem_identifier.mpr ⟨c, _, rfl, starts, List.all_eq_true.mp List.all_takeWhile⟩
  begins := List.cons_prefix_cons.mpr ⟨rfl, List.takeWhile_prefix _⟩
  longest other member begins := by
    obtain ⟨d, more, rfl, _, parts⟩ := mem_identifier.mp member
    have later := (List.cons_prefix_cons.mp begins).2
    exact Nat.succ_le_succ (takeWhile_longest parts later)

theorem isLongest_oneOf (holds : p c = true) : IsLongest (oneOf p) [c] (c :: rest) where
  mem := ⟨c, holds, rfl⟩
  begins := List.cons_prefix_cons.mpr ⟨rfl, List.nil_prefix⟩
  longest other member _ := by
    obtain ⟨d, _, rfl⟩ := member
    exact Nat.le_refl _

/-- What the tokenizer finds is the longest word of its pattern. -/
theorem isLongest_of_lexeme? {lexeme : Lexeme} (found : lexeme? c rest = some lexeme) :
    IsLongest lexeme.pattern lexeme.text (c :: rest) := by
  unfold lexeme? at found
  dsimp only at found
  split at found
  · next some =>
    cases found
    exact isLongest_numeralText (by simpa using some)
  · split at found
    · next starts =>
      cases found
      exact isLongest_identifier starts
    · split at found
      · next line =>
        cases found
        subst line
        exact isLongest_oneOf rfl
      · split at found
        · next symbol =>
          cases found
          exact isLongest_oneOf (by simpa using symbol)
        · contradiction

theorem pattern_ne_nil {lexeme : Lexeme} (member : w ∈ lexeme.pattern) : w ≠ [] := by
  cases lexeme with
  | number text => exact numeral_ne_nil member
  | name text =>
    obtain ⟨c, more, rfl, _⟩ := mem_identifier.mp member
    exact List.cons_ne_nil _ _
  | symbol c =>
    obtain ⟨d, _, rfl⟩ := member
    exact List.cons_ne_nil _ _
  | lineBreak =>
    obtain ⟨d, _, rfl⟩ := member
    exact List.cons_ne_nil _ _

/-- Where the tokenizer finds nothing, no pattern has a word. -/
theorem no_word_of_lexeme? (missing : lexeme? c rest = none) (lexeme : Lexeme) :
    ∀ w ∈ lexeme.pattern, ¬w <+: c :: rest := by
  unfold lexeme? at missing
  dsimp only at missing
  intro w member begins
  split at missing
  · contradiction
  · next absent =>
    have none : numeralText (c :: rest) = [] := by simpa using absent
    split at missing
    · contradiction
    · next other =>
      split at missing
      · contradiction
      · next line =>
        split at missing
        · contradiction
        · next symbol =>
          cases lexeme with
          | number text =>
            have longer := length_le_numeralText member begins
            rw [none] at longer
            exact numeral_ne_nil member (List.length_eq_zero_iff.mp (Nat.le_zero.mp longer))
          | name text =>
            obtain ⟨d, more, rfl, starts, _⟩ := mem_identifier.mp member
            obtain ⟨rfl, _⟩ := List.cons_prefix_cons.mp begins
            exact other starts
          | symbol text =>
            obtain ⟨d, holds, rfl⟩ := member
            obtain ⟨rfl, _⟩ := List.cons_prefix_cons.mp begins
            exact symbol (by simpa using holds)
          | lineBreak =>
            obtain ⟨d, holds, rfl⟩ := member
            obtain ⟨rfl, _⟩ := List.cons_prefix_cons.mp begins
            exact line (beq_iff_eq.mp holds)

end MatrixCalculator.Language
