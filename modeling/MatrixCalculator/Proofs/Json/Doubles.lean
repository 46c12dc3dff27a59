import MatrixCalculator.Proofs.Decimal.Layout
import MatrixCalculator.Proofs.Decimal.Shortest
import MatrixCalculator.Proofs.Double.Scientific
import MatrixCalculator.Proofs.Json.RoundTrip

/-! Every double is read back from its text. The text of a finite one has the parts of a decimal
number that stands in its neighbourhood; the others are read by their names. -/
namespace MatrixCalculator.Json

open Float.Model MatrixCalculator.Decimal MatrixCalculator.Double

variable {layout : Layout}

section Parts

theorem takeWhile_isDigit_front {front back : List Char} (digits : AllDigits front)
    (stops : ∀ c, back.head? = some c → isDigit c = false) :
    (front ++ back).takeWhile isDigit = front :=
  Decimal.takeWhile_append_of_stops (p := isDigit) digits stops

theorem wholeText_of_leads {whole rest : List Char} (digits : AllDigits whole)
    (leads : ∃ c cs, whole = c :: cs ∧ (c = '0' → cs = []))
    (stops : ∀ c, rest.head? = some c → isDigit c = false) : wholeText (whole ++ rest) = whole := by
  obtain ⟨c, cs, rfl, single⟩ := leads
  by_cases zero : c = '0'
  · subst zero
    rw [single rfl]
    rfl
  · rw [wholeText]
    · exact takeWhile_isDigit_front digits stops
    · simpa using zero

theorem fractionText_fractionPart {fraction rest : List Char} (digits : AllDigits fraction)
    (stops : ∀ c, rest.head? = some c → isDigit c = false ∧ c ≠ '.') :
    fractionText (fractionPart fraction ++ rest) = fractionPart fraction := by
  cases fraction with
  | nil =>
    refine fractionText_other fun more same => ?_
    exact (stops '.' (by rw [show rest = '.' :: more from same]; rfl)).2 rfl
  | cons digit fraction =>
    simp only [fractionPart, List.cons_append]
    rw [← List.cons_append, fractionText, takeWhile_isDigit_front digits
      fun c first => (stops c first).1]
    rfl

theorem exponentText_exponentPart (exponent : Option Int) :
    exponentText (exponentPart exponent) = exponentPart exponent := by
  cases exponent with
  | none => rfl
  | some exponent =>
    have all : (padded 2 exponent.natAbs).takeWhile isDigit = padded 2 exponent.natAbs := by
      have whole : (padded 2 exponent.natAbs ++ []).takeWhile isDigit = padded 2 exponent.natAbs :=
        takeWhile_isDigit_front (allDigits_padded 2 exponent.natAbs) fun c first => by cases first
      rwa [List.append_nil] at whole
    have some : (padded 2 exponent.natAbs).isEmpty = false := by
      rw [List.isEmpty_eq_false_iff]
      exact padded_ne_nil 2 _
    rw [exponentPart]
    by_cases negative : exponent < 0
    · rw [if_pos negative]
      simp [exponentText, all, some]
    · rw [if_neg negative]
      simp [exponentText, all, some]

theorem numeral_text (formed : layout.WellFormed) :
    numeral layout.text =
      (layout.whole, fractionPart layout.fraction, exponentPart layout.exponent) := by
  have ends (c : Char) (first : (exponentPart layout.exponent).head? = some c) :
      isDigit c = false ∧ c ≠ '.' := by
    rw [head_exponentPart first]
    decide
  have stops (c : Char) (first : (fractionPart layout.fraction ++
      exponentPart layout.exponent).head? = some c) : isDigit c = false := by
    rcases head_fractionPart first with rfl | rfl <;> decide
  have whole : wholeText layout.text = layout.whole :=
    wholeText_of_leads formed.whole formed.leads stops
  simp only [numeral, whole]
  rw [Layout.text, List.drop_left, fractionText_fractionPart formed.fraction ends,
    ← List.append_assoc, List.drop_left, exponentText_exponentPart]

theorem mem_exponentPart {exponent : Option Int} {c : Char} (member : c ∈ exponentPart exponent) :
    IsNumeral c := by
  cases exponent with
  | none => exact absurd member List.not_mem_nil
  | some exponent =>
    rcases List.mem_cons.mp member with rfl | member
    · exact .inr (by decide)
    · rcases List.mem_cons.mp member with rfl | member
      · refine .inr ?_
        split <;> decide
      · exact .inl (allDigits_padded _ _ _ member)

theorem mem_fractionPart {fraction : List Char} (digits : AllDigits fraction) {c : Char}
    (member : c ∈ fractionPart fraction) : IsNumeral c := by
  cases fraction with
  | nil => exact absurd member List.not_mem_nil
  | cons digit fraction =>
    rcases List.mem_cons.mp member with rfl | member
    · exact .inr (by decide)
    · exact .inl (digits c member)

theorem mem_text (formed : layout.WellFormed) {c : Char} (member : c ∈ layout.text) :
    IsNumeral c := by
  rcases List.mem_append.mp member with whole | member
  · exact .inl (formed.whole c whole)
  · rcases List.mem_append.mp member with fraction | exponent
    · exact mem_fractionPart formed.fraction fraction
    · exact mem_exponentPart exponent

/-- The digits of a number, behind a minus sign or not, are read as the nearest double. -/
theorem signedNumber_text (formed : layout.WellFormed) (negative : Bool) :
    signedNumber negative layout.text =
      let size := nearestDouble layout.number.digits layout.number.exponent
      .ok (.double (if negative then -size else size), []) := by
  obtain ⟨c, cs, first, -⟩ := formed.leads
  have whole : layout.whole ≠ [] := by
    rw [first]
    exact List.cons_ne_nil c cs
  have fractional : ((fractionPart layout.fraction).isEmpty &&
      (exponentPart layout.exponent).isEmpty) = false := by
    rcases formed.fractional with fraction | exponent
    · rw [fractionPart_of_ne_nil fraction]
      rfl
    · obtain ⟨exponent, given⟩ := Option.ne_none_iff_exists'.mp exponent
      rw [given, Bool.and_comm]
      rfl
  have text : layout.whole ++ fractionPart layout.fraction ++ exponentPart layout.exponent =
      layout.text := List.append_assoc _ _ _
  simp only [signedNumber, numeral_text formed, if_neg whole, fractional, text,
    readDouble_text formed, List.drop_length, Bool.false_eq_true, if_false]

theorem plainFrom_signed (formed : layout.WellFormed) (sign : UnpackedFloat.Sign) :
    plainFrom (signed sign layout.text) =
      let size := nearestDouble layout.number.digits layout.number.exponent
      .ok (.double (if sign matches .negative then -size else size), []) := by
  have text (c : Char) (member : c ∈ layout.text) : IsNumeral c := mem_text formed member
  cases sign with
  | negative =>
    have all : ∀ c ∈ '-' :: layout.text, IsNumeral c :=
      List.forall_mem_cons.mpr ⟨.inr (by decide), text⟩
    rw [signed, plainFrom_number (word?_eq_none all), numberFrom_eq]
    exact signedNumber_text formed true
  | positive =>
    have unmarked : (layout.text.head? == some '-') = false := by
      obtain ⟨c, cs, first, -⟩ := formed.leads
      have digit : c.isDigit = true := formed.whole c (by rw [first]; exact List.mem_cons_self)
      rw [Layout.text, first]
      refine beq_eq_false_iff_ne.mpr fun marked => ?_
      rw [Option.some.inj marked] at digit
      contradiction
    rw [signed, plainFrom_number (word?_eq_none text), numberFrom_eq, unsigned, unmarked]
    exact signedNumber_text formed false

end Parts

variable {x : Float}

theorem eq_ofModel_pack {unpacked : UnpackedFloat} (shape : x.toModel.unpack = unpacked) :
    x = .ofModel (pack unpacked) := by
  rw [← shape, pack_unpack]

theorem neg_ofModel_pack {m : Nat} {q : Int} (positive : 0 < m) (fits : Canonical m q) :
    -(Float.ofModel (pack (.finite .positive m q positive))) =
      .ofModel (pack (.finite .negative m q positive)) := by
  refine congrArg (Float.ofModel ∘ pack) ?_
  rw [unpack_pack .positive positive fits]
  rfl

theorem readsBack_finite {sign : UnpackedFloat.Sign} {m : Nat} {q : Int} {positive : 0 < m}
    (shape : x.toModel.unpack = .finite sign m q positive) : ReadsBack x := by
  have fits := canonical_of_unpack shape
  have holds := shortest_holds positive fits
  have digits : 0 < (shortest m q).digits := pos_of_holds positive holds
  have number : x.isNaN = false := by
    change x.toModel.unpack.isNaN = false
    rw [shape]
    rfl
  have bounded : x.isInf = false := by
    change x.toModel.unpack.isInf = false
    rw [shape]
    rfl
  have text : doubleText x = signed sign (shortest m q).layout.text := by
    rw [doubleText, number, bounded, Double.text, shape, text_layout digits]
    rfl
  rw [← value_layout digits] at holds
  rw [ReadsBack, text, plainFrom_signed (wellFormed_layout digits),
    nearestDouble_of_holds positive fits holds, eq_ofModel_pack shape]
  cases sign with
  | negative =>
    exact congrArg (fun y => Except.ok (Json.double y, [])) (neg_ofModel_pack positive fits)
  | positive => rfl

/-- Every double is read back from its text. -/
theorem readsBack_all (x : Float) : ReadsBack x := by
  cases shape : x.toModel.unpack with
  | notANumber =>
    rw [eq_ofModel_pack shape]
    decide +kernel
  | infinity sign =>
    rw [eq_ofModel_pack shape]
    cases sign <;> decide +kernel
  | zero sign =>
    rw [eq_ofModel_pack shape]
    cases sign <;> decide +kernel
  | finite sign m q positive => exact readsBack_finite shape

end MatrixCalculator.Json
