import MatrixCalculator.Json.Writer
import MatrixCalculator.Proofs.Decimal.Digits
import MatrixCalculator.Proofs.Json.Reading

/-! Words and numbers end where a comma or a line break stands, so what is read of them does not
depend on what follows. Whole numbers are read back from their digits. -/
namespace MatrixCalculator.Json

open MatrixCalculator.Decimal

variable {input rest : List Char}

/-- Nothing follows that a number or a word could go on with. -/
def Ends (rest : List Char) : Prop :=
  ∀ c, rest.head? = some c → c ∈ [',', '\n']

section Numbers

variable {front : List Char} {item : Json}

theorem takeWhile_append_of_stops {p : Char → Bool}
    (stops : ∀ c, rest.head? = some c → p c = false) :
    (front ++ rest).takeWhile p = front.takeWhile p := by
  induction front with
  | nil =>
    cases rest with
    | nil => rfl
    | cons c rest => simp [stops c rfl]
  | cons c front ih =>
    rw [List.cons_append, List.takeWhile_cons, List.takeWhile_cons, ih]

theorem Ends.not_digit (ends : Ends rest) : ∀ c, rest.head? = some c → isDigit c = false := by
  intro c follows
  have member := ends c follows
  simp only [List.mem_cons, List.not_mem_nil, or_false] at member
  rcases member with rfl | rfl <;> decide

theorem takeWhile_isDigit_append (ends : Ends rest) :
    (front ++ rest).takeWhile isDigit = front.takeWhile isDigit :=
  takeWhile_append_of_stops ends.not_digit

theorem wholeText_isPrefix (cs : List Char) : wholeText cs <+: cs := by
  unfold wholeText
  split
  · exact List.cons_prefix_cons.mpr ⟨rfl, List.nil_prefix⟩
  · exact List.takeWhile_prefix _

theorem wholeText_append (begun : front ≠ []) (ends : Ends rest) :
    wholeText (front ++ rest) = wholeText front := by
  cases front with
  | nil => contradiction
  | cons c front =>
    by_cases zero : c = '0'
    · subst zero
      rfl
    · rw [List.cons_append, wholeText, wholeText]
      · exact @takeWhile_isDigit_append _ (c :: front) ends
      · simpa using zero
      · simpa using zero

theorem Ends.cases (ends : Ends rest) :
    rest = [] ∨ (∃ more, rest = ',' :: more) ∨ ∃ more, rest = '\n' :: more := by
  cases rest with
  | nil => exact .inl rfl
  | cons c more =>
    have member := ends c rfl
    simp only [List.mem_cons, List.not_mem_nil, or_false] at member
    rcases member with rfl | rfl
    · exact .inr (.inl ⟨more, rfl⟩)
    · exact .inr (.inr ⟨more, rfl⟩)

theorem fractionText_other (plain : ∀ more, input ≠ '.' :: more) : fractionText input = [] := by
  rw [fractionText]
  exact plain

theorem fractionText_append (ends : Ends rest) :
    fractionText (front ++ rest) = fractionText front := by
  rcases front with _ | ⟨c, front⟩
  · rcases ends.cases with rfl | ⟨more, rfl⟩ | ⟨more, rfl⟩ <;> rfl
  · by_cases point : c = '.'
    · subst point
      simp only [List.cons_append, fractionText, takeWhile_isDigit_append ends]
    · rw [fractionText_other (by simp [point]), fractionText_other (by simp [point])]

theorem fractionText_isPrefix (cs : List Char) : fractionText cs <+: cs := by
  rw [fractionText.eq_def]
  split
  · dsimp only
    split
    · exact List.nil_prefix
    · exact List.cons_prefix_cons.mpr ⟨rfl, List.takeWhile_prefix _⟩
  · exact List.nil_prefix

theorem exponentText_append (ends : Ends rest) :
    exponentText (front ++ rest) = exponentText front := by
  rcases front with _ | ⟨mark, _ | ⟨c, front⟩⟩
  · rcases ends.cases with rfl | ⟨more, rfl⟩ | ⟨more, rfl⟩ <;> simp [exponentText]
  · rcases ends.cases with rfl | ⟨more, rfl⟩ | ⟨more, rfl⟩ <;> simp [exponentText, isDigit]
  · have short : (((c :: front).take 1).filter fun c => c == '+' || c == '-').length ≤
        (c :: front).length :=
      Nat.le_trans (List.length_filter_le _ _) (List.length_take_le' _ _)
    have same : ((c :: front ++ rest).take 1).filter (fun c => c == '+' || c == '-') =
        ((c :: front).take 1).filter fun c => c == '+' || c == '-' := rfl
    simp only [List.cons_append, exponentText] at same ⊢
    rw [same, ← List.cons_append, List.drop_append_of_le_length short,
      takeWhile_isDigit_append ends]

theorem exponentText_isPrefix (cs : List Char) : exponentText cs <+: cs := by
  cases cs with
  | nil => exact List.prefix_refl _
  | cons mark more =>
    simp only [exponentText]
    split
    · refine List.cons_prefix_cons.mpr ⟨rfl, ?_⟩
      have sign : (more.take 1).filter (fun c => c == '+' || c == '-') <+: more := by
        cases more with
        | nil => exact List.prefix_refl _
        | cons c rest => cases signed : c == '+' || c == '-' <;> simp [signed]
      conv => rhs; rw [← List.prefix_iff_eq_append.mp sign]
      exact (List.prefix_append_right_inj _).mpr (List.takeWhile_prefix _)
    · exact List.nil_prefix

def numeral (unsigned : List Char) : List Char × List Char × List Char :=
  let whole := wholeText unsigned
  let fraction := fractionText (unsigned.drop whole.length)
  (whole, fraction, exponentText (unsigned.drop (whole ++ fraction).length))

theorem length_wholeText_le (cs : List Char) : (wholeText cs).length ≤ cs.length :=
  (wholeText_isPrefix cs).length_le

theorem length_mantissa_le (cs : List Char) :
    (wholeText cs ++ fractionText (cs.drop (wholeText cs).length)).length ≤ cs.length := by
  have fits := (fractionText_isPrefix (cs.drop (wholeText cs).length)).length_le
  have whole := length_wholeText_le cs
  rw [List.length_drop] at fits
  rw [List.length_append]
  omega

theorem numeral_append (begun : front ≠ []) (ends : Ends rest) :
    numeral (front ++ rest) = numeral front := by
  simp only [numeral, wholeText_append begun ends,
    List.drop_append_of_le_length (length_wholeText_le front), fractionText_append ends,
    List.drop_append_of_le_length (length_mantissa_le front), exponentText_append ends]

theorem length_numeral_le (cs : List Char) :
    ((numeral cs).1 ++ (numeral cs).2.1 ++ (numeral cs).2.2).length ≤ cs.length := by
  have mantissa := length_mantissa_le cs
  have fits := (exponentText_isPrefix (cs.drop
    (wholeText cs ++ fractionText (cs.drop (wholeText cs).length)).length)).length_le
  rw [List.length_drop] at fits
  rw [List.length_append]
  simp only [numeral]
  omega

def signedNumber (negative : Bool) (unsigned : List Char) : Except ReadFault (Json × List Char) :=
  let (whole, fraction, exponent) := numeral unsigned
  let left := unsigned.drop (whole ++ fraction ++ exponent).length
  if whole = [] then .error .malformed
  else if fraction.isEmpty && exponent.isEmpty then
    if Text.digitLimit < whole.length then .error .oversizedInteger
    else
      let size : Int := Text.digitsValue whole
      .ok (.integer (if negative then -size else size), left)
  else
    let size := Decimal.readDouble (whole ++ fraction ++ exponent)
    .ok (.double (if negative then -size else size), left)

def unsigned (input : List Char) : List Char :=
  if input.head? == some '-' then input.drop 1 else input

theorem length_unsigned_le (input : List Char) : (unsigned input).length ≤ input.length := by
  unfold unsigned
  split
  · rw [List.length_drop]
    omega
  · exact Nat.le_refl _

theorem numberFrom_eq (input : List Char) :
    outcome (readNumber input) = signedNumber (input.head? == some '-') (unsigned input) := by
  have empty : (wholeText (unsigned input)).length = 0 ∨ input.length = 0 ↔
      wholeText (unsigned input) = [] := by
    have fits := length_wholeText_le (unsigned input)
    have fewer := length_unsigned_le input
    rw [← List.length_eq_zero_iff]
    omega
  unfold readNumber signedNumber numeral
  unfold unsigned at empty ⊢
  rcases Bool.eq_false_or_eq_true (input.head? == some '-') with minus | minus
  all_goals
    simp only [minus, if_true, Bool.false_eq_true, if_false] at empty ⊢
    split
    · next absent =>
      rw [if_pos (empty.mp absent)]
      rfl
    · next present =>
      rw [if_neg (mt empty.mpr present)]
      split
      · split <;> rfl
      · rfl

theorem unsigned_append (begun : front ≠ []) :
    unsigned (front ++ rest) = unsigned front ++ rest := by
  cases front with
  | nil => contradiction
  | cons c front =>
    unfold unsigned
    rw [List.cons_append, List.head?_cons, List.head?_cons]
    cases some c == some '-' <;> rfl

theorem signedNumber_append {negative : Bool}
    (read : signedNumber negative front = .ok (item, [])) (ends : Ends rest) :
    signedNumber negative (front ++ rest) = .ok (item, rest) := by
  have begun : front ≠ [] := by
    rintro rfl
    contradiction
  have fits := length_numeral_le front
  unfold signedNumber at read ⊢
  rw [numeral_append begun ends]
  generalize numeral front = parts at fits read ⊢
  obtain ⟨whole, fraction, exponent⟩ := parts
  dsimp only at fits read ⊢
  rw [List.drop_append_of_le_length fits]
  split at read
  · contradiction
  · next present =>
    rw [if_neg present]
    split at read
    · next integral =>
      rw [if_pos integral]
      split at read
      · contradiction
      · next small =>
        rw [if_neg small]
        obtain ⟨rfl, none⟩ := Prod.mk.inj (Except.ok.inj read)
        rw [none]
        rfl
    · next fractional =>
      rw [if_neg fractional]
      obtain ⟨rfl, none⟩ := Prod.mk.inj (Except.ok.inj read)
      rw [none]
      rfl

theorem numberFrom_append (read : outcome (readNumber front) = .ok (item, [])) (ends : Ends rest) :
    outcome (readNumber (front ++ rest)) = .ok (item, rest) := by
  rw [numberFrom_eq] at read ⊢
  cases front with
  | nil => contradiction
  | cons c front =>
    rw [unsigned_append (List.cons_ne_nil c front)]
    exact signedNumber_append read ends

end Numbers

section Plain

variable {front : List Char} {item : Json}

theorem prefix_append_iff {word : List Char} (ends : Ends rest)
    (clear : ∀ c ∈ word, c ∉ [',', '\n']) : word <+: front ++ rest ↔ word <+: front := by
  refine ⟨fun within => ?_, fun within => within.trans (List.prefix_append front rest)⟩
  rcases List.prefix_or_prefix_of_prefix within (List.prefix_append front rest) with
    inside | ⟨tail, rfl⟩
  · exact inside
  · have behind := (List.prefix_append_right_inj front).mp within
    cases tail with
    | nil => exact ⟨[], by simp⟩
    | cons c tail =>
      obtain ⟨others, rfl⟩ := behind
      exact absurd (ends c rfl) (clear c (by simp))

def word? (input : List Char) : Option (String × Json) :=
  words.find? fun w => w.1.toList.isPrefixOf input

theorem clear_of_words : ∀ word ∈ words.map (·.1), ∀ c ∈ word.toList, c ∉ [',', '\n'] := by
  simp [words]

theorem find?_congr {β : Type} {p q : β → Bool} {l : List β} (same : ∀ b ∈ l, p b = q b) :
    l.find? p = l.find? q := by
  induction l with
  | nil => rfl
  | cons b l ih =>
    rw [List.find?_cons, List.find?_cons, same b List.mem_cons_self,
      ih fun b member => same b (List.mem_cons_of_mem _ member)]

theorem word?_append (ends : Ends rest) : word? (front ++ rest) = word? front := by
  apply find?_congr
  intro w member
  have clear := clear_of_words w.1 (List.mem_map_of_mem member)
  rw [Bool.eq_iff_iff, List.isPrefixOf_iff_prefix, List.isPrefixOf_iff_prefix]
  exact prefix_append_iff ends clear

theorem plainFrom_word {word : String} (found : word? input = some (word, item)) :
    plainFrom input = if (input.drop word.length).length < input.length then
      .ok (item, input.drop word.length) else .error .malformed := by
  unfold plainFrom readPlain
  rw [word?] at found
  rw [found]
  dsimp only
  split <;> rfl

theorem plainFrom_number (absent : word? input = none) :
    plainFrom input = outcome (readNumber input) := by
  unfold plainFrom readPlain
  rw [word?] at absent
  rw [absent]

theorem plainFrom_append (read : plainFrom front = .ok (item, [])) (ends : Ends rest) :
    plainFrom (front ++ rest) = .ok (item, rest) := by
  have same : word? (front ++ rest) = word? front := word?_append ends
  cases found : word? front with
  | none =>
    rw [plainFrom_number found] at read
    rw [plainFrom_number (same.trans found)]
    exact numberFrom_append read ends
  | some w =>
    obtain ⟨word, value⟩ := w
    rw [plainFrom_word found] at read
    rw [plainFrom_word (same.trans found)]
    have fits : word.length ≤ front.length := by
      have inside : word.toList.isPrefixOf front = true :=
        List.find?_some (p := fun w : String × Json => w.1.toList.isPrefixOf front) found
      rw [← String.length_toList]
      exact (List.isPrefixOf_iff_prefix.mp inside).length_le
    split at read
    · next fewer =>
      obtain ⟨rfl, none⟩ := Prod.mk.inj (Except.ok.inj read)
      rw [none] at fewer
      rw [List.drop_append_of_le_length fits, none, List.nil_append, List.length_append,
        if_pos (Nat.lt_add_of_pos_left fewer)]
    · contradiction

theorem takeWhile_isDigit_toDigits (n : Nat) :
    (Nat.toDigits 10 n).takeWhile isDigit = Nat.toDigits 10 n := by
  have all : ∀ c ∈ Nat.toDigits 10 n, isDigit c = true := allDigits_toDigits n
  have whole : (Nat.toDigits 10 n ++ []).takeWhile isDigit = _ := List.takeWhile_append_of_pos all
  simpa using whole

theorem wholeText_toDigits (n : Nat) : wholeText (Nat.toDigits 10 n) = Nat.toDigits 10 n := by
  rcases Nat.eq_zero_or_pos n with rfl | positive
  · rfl
  · obtain ⟨c, cs, digits, leads⟩ := exists_cons_toDigits positive
    rw [wholeText]
    · exact takeWhile_isDigit_toDigits n
    · rw [digits]
      simpa using leads

def IsNumeral (c : Char) : Prop :=
  isDigit c = true ∨ c ∈ ['-', '+', '.', 'e']

theorem word?_eq_none (plain : ∀ c ∈ input, IsNumeral c) : word? input = none := by
  have letters : ∀ word ∈ words.map (·.1), ∃ c ∈ word.toList, ¬IsNumeral c := by
    simp [words, IsNumeral, isDigit]
  rw [word?, List.find?_eq_none]
  intro w member inside
  obtain ⟨c, letter, other⟩ := letters w.1 (List.mem_map_of_mem member)
  exact other (plain c ((List.isPrefixOf_iff_prefix.mp inside).subset letter))

theorem signedNumber_toDigits {n : Nat} (negative : Bool)
    (fits : (Nat.toDigits 10 n).length ≤ Text.digitLimit) :
    signedNumber negative (Nat.toDigits 10 n) =
      .ok (.integer (if negative then -n else n), []) := by
  have none : Nat.toDigits 10 n ≠ [] := Nat.toDigits_ne_nil
  have parts : numeral (Nat.toDigits 10 n) = (Nat.toDigits 10 n, [], []) := by
    simp [numeral, wholeText_toDigits, fractionText, exponentText]
  simp [signedNumber, parts, none, Nat.not_lt.mpr fits, digitsValue_toDigits]

theorem mem_integer {n : Int} {c : Char} (member : c ∈ Decimal.integer n) : IsNumeral c := by
  unfold Decimal.integer at member
  split at member
  · rcases List.mem_cons.mp member with rfl | digit
    · exact .inr (by decide)
    · exact .inl (allDigits_toDigits _ _ digit)
  · exact .inl (allDigits_toDigits _ _ member)

theorem plainFrom_integer {n : Int} (fits : (Nat.toDigits 10 n.natAbs).length ≤ Text.digitLimit) :
    plainFrom (Decimal.integer n) = .ok (.integer n, []) := by
  rw [plainFrom_number (word?_eq_none fun c => mem_integer), numberFrom_eq]
  unfold Decimal.integer
  split
  · next negative =>
    have size : -(n.natAbs : Int) = n := by omega
    exact (signedNumber_toDigits true fits).trans (by rw [if_pos rfl, size])
  · next positive =>
    have size : (n.natAbs : Int) = n := by omega
    have unmarked : ((Nat.toDigits 10 n.natAbs).head? == some '-') = false := by
      apply beq_eq_false_iff_ne.mpr
      intro marked
      have digit := allDigits_toDigits _ _ (List.mem_of_head? marked)
      contradiction
    rw [unsigned, unmarked]
    exact (signedNumber_toDigits false fits).trans (by simp [size])

theorem isDigit_of_wholeText {c : Char} {cs : List Char} (some : wholeText (c :: cs) ≠ []) :
    isDigit c = true := by
  by_cases zero : c = '0'
  · subst zero
    decide
  · rw [wholeText] at some
    · cases digit : isDigit c with
      | true => rfl
      | false => simp [digit] at some
    · simpa using zero

def Begins (c : Char) : Prop :=
  c ∈ ['n', 't', 'f', 'N', 'I', '-'] ∨ isDigit c = true

theorem begins_of_word? {w : String × Json} (found : word? input = some w) :
    ∃ c cs, input = c :: cs ∧ Begins c := by
  have heads : ∀ word ∈ words.map (·.1), ∃ c ∈ word.toList.take 1,
      c ∈ ['n', 't', 'f', 'N', 'I', '-'] := by simp [words]
  have inside := List.isPrefixOf_iff_prefix.mp
    (List.find?_some (p := fun w : String × Json => w.1.toList.isPrefixOf input) found)
  obtain ⟨c, first, letter⟩ := heads w.1 (List.mem_map_of_mem (List.mem_of_find?_eq_some found))
  obtain ⟨behind, rfl⟩ := inside
  cases text : w.1.toList with
  | nil =>
    rw [text] at first
    exact absurd first List.not_mem_nil
  | cons d ds =>
    rw [text] at first
    obtain rfl : c = d := by simpa using first
    exact ⟨c, ds ++ behind, rfl, .inl letter⟩

theorem begins_of_number (read : outcome (readNumber input) = .ok (item, rest)) :
    ∃ c cs, input = c :: cs ∧ Begins c := by
  rw [numberFrom_eq] at read
  have whole : wholeText (unsigned input) ≠ [] := by
    intro absent
    simp only [signedNumber, numeral, absent, if_true] at read
    contradiction
  cases input with
  | nil => exact absurd rfl whole
  | cons c cs =>
    refine ⟨c, cs, rfl, ?_⟩
    by_cases minus : c = '-'
    · subst minus
      exact .inl (by decide)
    · have same : unsigned (c :: cs) = c :: cs := by simp [unsigned, minus]
      rw [same] at whole
      exact .inr (isDigit_of_wholeText whole)

theorem begins_of_plainFrom (read : plainFrom input = .ok (item, rest)) :
    ∃ c cs, input = c :: cs ∧ Begins c := by
  cases found : word? input with
  | some w => exact begins_of_word? found
  | none =>
    rw [plainFrom_number found] at read
    exact begins_of_number read

theorem Begins.solid {c : Char} (begins : Begins c) :
    isSpace c = false ∧ c ∉ ['"', '[', '{', ']', '}'] := by
  rcases begins with letter | digit
  · simp only [List.mem_cons, List.not_mem_nil, or_false] at letter
    rcases letter with rfl | rfl | rfl | rfl | rfl | rfl <;> decide
  · constructor
    · cases blank : isSpace c with
      | false => rfl
      | true =>
        simp only [isSpace, Bool.or_eq_true, beq_iff_eq] at blank
        rcases blank with ((rfl | rfl) | rfl) | rfl <;> exact absurd digit (by decide)
    · intro member
      simp only [List.mem_cons, List.not_mem_nil, or_false] at member
      rcases member with rfl | rfl | rfl | rfl | rfl <;> exact absurd digit (by decide)

end Plain

end MatrixCalculator.Json
