import MatrixCalculator.Proofs.Language.Spelling

/-! How a source is cut into tokens. A lexeme depends on its own characters and on where it ends:
what stands behind it can be taken away, or be set apart by a character that no longer lexeme
holds, and the lexeme stays. So a source can be cut off in front of any of its tokens, and two
sources can be joined at a separator or a blank. -/
namespace MatrixCalculator.Language

open MatrixCalculator.Text

section Spans

variable {β : Type} {p : β → Bool} {front back : List β}

theorem takeWhile_of_inside (inside : ((front ++ back).takeWhile p).length ≤ front.length) :
    (front ++ back).takeWhile p = front.takeWhile p := by
  rw [List.takeWhile_append] at inside ⊢
  split
  · next all =>
    rw [if_pos all, List.length_append] at inside
    have none : back.takeWhile p = [] := List.length_eq_zero_iff.mp (by omega)
    rw [none, List.append_nil, (List.takeWhile_prefix p).eq_of_length all]
  · rfl

theorem dropWhile_of_inside (inside : ((front ++ back).takeWhile p).length ≤ front.length) :
    (front ++ back).dropWhile p = front.dropWhile p ++ back := by
  have whole := (front ++ back).takeWhile_append_dropWhile (p := p)
  rw [takeWhile_of_inside inside] at whole
  have front_whole := front.takeWhile_append_dropWhile (p := p)
  exact List.append_cancel_left (whole.trans (by rw [← List.append_assoc, front_whole]))

end Spans

section Numerals

variable {cs more front back : List Char}

theorem mantissaText_point (point : cs.dropWhile isDecimalDigit = '.' :: more) :
    mantissaText cs =
      if cs.takeWhile isDecimalDigit = [] ∧ more.takeWhile isDecimalDigit = [] then []
      else cs.takeWhile isDecimalDigit ++ '.' :: more.takeWhile isDecimalDigit := by
  simp [mantissaText, point]

theorem mantissaText_plain (plain : ∀ more, cs.dropWhile isDecimalDigit ≠ '.' :: more) :
    mantissaText cs = cs.takeWhile isDecimalDigit := by
  unfold mantissaText
  dsimp only
  split
  · next more point => exact absurd point (plain more)
  · rfl

theorem length_digits_le_mantissaText (cs : List Char) :
    (cs.takeWhile isDecimalDigit).length ≤ (mantissaText cs).length := by
  by_cases point : ∃ more, cs.dropWhile isDecimalDigit = '.' :: more
  · obtain ⟨more, point⟩ := point
    rw [mantissaText_point point]
    split
    · next none => simp [none.1]
    · simp
  · have plain := mantissaText_plain (not_exists.mp point)
    exact Nat.le_of_eq (congrArg List.length plain).symm

theorem mantissaText_of_inside (inside : (mantissaText (front ++ back)).length ≤ front.length) :
    mantissaText (front ++ back) = mantissaText front := by
  have digits := Nat.le_trans (length_digits_le_mantissaText (front ++ back)) inside
  have parts := congrArg List.length (front.takeWhile_append_dropWhile (p := isDecimalDigit))
  have same := takeWhile_of_inside digits
  have ahead := dropWhile_of_inside digits
  rw [List.length_append] at parts
  by_cases ends : front.dropWhile isDecimalDigit = []
  · -- The digits are all there is, and a point behind them would belong to the numeral.
    rw [ends, List.nil_append] at ahead
    rw [ends, List.length_nil] at parts
    have plain : mantissaText front = front.takeWhile isDecimalDigit :=
      mantissaText_plain (by simp [ends])
    rw [plain]
    by_cases point : ∃ more, back = '.' :: more
    · obtain ⟨more, rfl⟩ := point
      rw [mantissaText_point ahead, same] at inside ⊢
      split
      · next none => exact none.1.symm
      · next some =>
        rw [if_neg some] at inside
        simp only [List.length_append, List.length_cons] at inside
        omega
    · rw [mantissaText_plain (fun more follows => point ⟨more, ahead ▸ follows⟩), same]
  · obtain ⟨c, rest, begins⟩ := List.exists_cons_of_ne_nil ends
    rw [begins, List.cons_append] at ahead
    by_cases point : c = '.'
    · subst point
      rw [mantissaText_point ahead, same] at inside ⊢
      have fraction : ((rest ++ back).takeWhile isDecimalDigit).length ≤ rest.length := by
        split at inside
        · next none => simp [none.2]
        · simp only [begins, List.length_append, List.length_cons] at inside parts
          omega
      rw [mantissaText_point begins, takeWhile_of_inside fraction]
    · have plain : mantissaText (front ++ back) = (front ++ back).takeWhile isDecimalDigit :=
        mantissaText_plain (by simp [ahead, point])
      rw [plain, same, mantissaText_plain (by simp [begins, point])]

theorem mantissaText_isPrefix (cs : List Char) : mantissaText cs <+: cs := by
  by_cases point : ∃ more, cs.dropWhile isDecimalDigit = '.' :: more
  · obtain ⟨more, point⟩ := point
    rw [mantissaText_point point]
    split
    · exact List.nil_prefix
    · have parts := cs.takeWhile_append_dropWhile (p := isDecimalDigit)
      rw [point] at parts
      conv => rhs; rw [← parts]
      exact (List.prefix_append_right_inj _).mpr
        (List.cons_prefix_cons.mpr ⟨rfl, List.takeWhile_prefix _⟩)
  · rw [mantissaText_plain (not_exists.mp point)]
    exact List.takeWhile_prefix _

theorem exponentText_cons (mark : Char) (more : List Char) :
    exponentText (mark :: more) =
      let sign := (more.take 1).filter isSign
      let digits := (more.drop sign.length).takeWhile isDecimalDigit
      if (mark = 'e' ∨ mark = 'E') ∧ digits ≠ [] then mark :: (sign ++ digits) else [] := by
  simp [exponentText]

theorem exponentText_singleton (mark : Char) : exponentText [mark] = [] := by
  simp [exponentText]

theorem exponentText_of_inside (inside : (exponentText (front ++ back)).length ≤ front.length) :
    exponentText (front ++ back) = exponentText front := by
  rcases front with _ | ⟨mark, _ | ⟨c, rest⟩⟩
  · exact List.length_eq_zero_iff.mp (Nat.le_zero.mp inside)
  · rw [List.cons_append, exponentText_cons] at inside ⊢
    rw [exponentText_singleton]
    dsimp only at inside ⊢
    split
    · next taken =>
      rw [if_pos taken] at inside
      have digits := List.length_pos_iff.mpr taken.2
      simp only [List.length_cons, List.length_append, List.length_nil] at inside digits
      omega
    · rfl
  · rw [List.cons_append, exponentText_cons] at inside ⊢
    rw [exponentText_cons]
    have same : ((c :: rest ++ back).take 1).filter isSign = ((c :: rest).take 1).filter isSign :=
      rfl
    have short : (((c :: rest).take 1).filter isSign).length ≤ (c :: rest).length :=
      Nat.le_trans (List.length_filter_le _ _) (List.length_take_le' _ _)
    dsimp only at inside ⊢
    rw [same, List.drop_append_of_le_length short] at inside ⊢
    generalize ((c :: rest).take 1).filter isSign = sign at inside short ⊢
    by_cases marked : mark = 'e' ∨ mark = 'E'
    · have digits : (((c :: rest).drop sign.length ++ back).takeWhile isDecimalDigit).length ≤
          ((c :: rest).drop sign.length).length := by
        split at inside
        · simp only [List.length_cons, List.length_append, List.length_drop] at inside ⊢
          omega
        · next absent =>
          have none := Classical.not_not.mp fun some => absent ⟨marked, some⟩
          simp [none]
      rw [takeWhile_of_inside digits]
    · rw [if_neg fun taken => marked taken.1, if_neg fun taken => marked taken.1]

theorem exponentText_isPrefix (cs : List Char) : exponentText cs <+: cs := by
  cases cs with
  | nil => exact List.prefix_refl _
  | cons mark more =>
    rw [exponentText_cons]
    dsimp only
    split
    · refine List.cons_prefix_cons.mpr ⟨rfl, ?_⟩
      have sign : (more.take 1).filter isSign <+: more := by
        cases more with
        | nil => exact List.prefix_refl _
        | cons c rest => cases signed : isSign c <;> simp [signed]
      conv => rhs; rw [← List.prefix_iff_eq_append.mp sign]
      exact (List.prefix_append_right_inj _).mpr (List.takeWhile_prefix _)
    · exact List.nil_prefix

theorem numeralText_eq (cs : List Char) :
    numeralText cs =
      if mantissaText cs = [] then []
      else mantissaText cs ++ exponentText (cs.drop (mantissaText cs).length) := by
  simp [numeralText]

theorem length_mantissaText_le_numeralText (cs : List Char) :
    (mantissaText cs).length ≤ (numeralText cs).length := by
  rw [numeralText_eq]
  split
  · next none => simp [none]
  · simp

theorem numeralText_of_inside (inside : (numeralText (front ++ back)).length ≤ front.length) :
    numeralText (front ++ back) = numeralText front := by
  have fits := Nat.le_trans (length_mantissaText_le_numeralText (front ++ back)) inside
  have mantissa := mantissaText_of_inside fits
  rw [numeralText_eq] at inside ⊢
  rw [numeralText_eq front, ← mantissa]
  split
  · rfl
  · next some =>
    rw [if_neg some, List.drop_append_of_le_length fits, List.length_append] at inside
    rw [List.drop_append_of_le_length fits, exponentText_of_inside]
    rw [List.length_drop]
    omega

theorem numeralText_isPrefix (cs : List Char) : numeralText cs <+: cs := by
  rw [numeralText_eq]
  split
  · exact List.nil_prefix
  · conv => rhs; rw [← List.prefix_iff_eq_append.mp (mantissaText_isPrefix cs)]
    exact (List.prefix_append_right_inj _).mpr (exponentText_isPrefix _)

/-- A character that stands in no lexeme with others. -/
def Breaks (c : Char) : Prop :=
  isDecimalDigit c = false ∧ isNamePart c = false ∧ isSign c = false ∧ c ≠ '.'

variable {c : Char}

theorem not_mem_takeWhile {p : Char → Bool} (stops : p c = false) : c ∉ cs.takeWhile p := by
  intro member
  have holds := List.all_eq_true.mp List.all_takeWhile c member
  rw [stops] at holds
  contradiction

theorem Breaks.not_mem_mantissaText (breaks : Breaks c) : c ∉ mantissaText cs := by
  have digits (cs : List Char) : c ∉ cs.takeWhile isDecimalDigit := not_mem_takeWhile breaks.1
  by_cases point : ∃ more, cs.dropWhile isDecimalDigit = '.' :: more
  · obtain ⟨more, point⟩ := point
    rw [mantissaText_point point]
    split
    · exact List.not_mem_nil
    · simp [digits, breaks.2.2.2]
  · rw [mantissaText_plain (not_exists.mp point)]
    exact digits cs

theorem Breaks.not_mem_exponentText (breaks : Breaks c) : c ∉ exponentText cs := by
  cases cs with
  | nil => exact List.not_mem_nil
  | cons mark more =>
    rw [exponentText_cons]
    dsimp only
    split
    · next taken =>
      have other : c ≠ mark := by
        rintro rfl
        rcases taken.1 with rfl | rfl <;> exact absurd breaks.2.1 (by decide)
      have digits (cs : List Char) : c ∉ cs.takeWhile isDecimalDigit := not_mem_takeWhile breaks.1
      simp [other, digits, breaks.2.2.1]
    · exact List.not_mem_nil

theorem Breaks.not_mem_numeralText (breaks : Breaks c) : c ∉ numeralText cs := by
  rw [numeralText_eq]
  split
  · exact List.not_mem_nil
  · simp [breaks.not_mem_mantissaText, breaks.not_mem_exponentText]

end Numerals

section Lexemes

variable {c : Char} {front back rest : List Char} {lexeme : Lexeme}

theorem lexeme?_isPrefix (found : lexeme? c rest = some lexeme) :
    lexeme.text <+: c :: rest ∧ lexeme.text ≠ [] := by
  unfold lexeme? at found
  dsimp only at found
  split at found
  · next numeral =>
    cases found
    exact ⟨numeralText_isPrefix _, by simpa [Lexeme.text] using numeral⟩
  · split at found
    · cases found
      exact ⟨List.cons_prefix_cons.mpr ⟨rfl, List.takeWhile_prefix _⟩, List.cons_ne_nil _ _⟩
    · split at found
      · next line =>
        cases found
        exact ⟨List.cons_prefix_cons.mpr ⟨line.symm, List.nil_prefix⟩, List.cons_ne_nil _ _⟩
      · split at found
        · cases found
          exact ⟨List.cons_prefix_cons.mpr ⟨rfl, List.nil_prefix⟩, List.cons_ne_nil _ _⟩
        · contradiction

/-- What stands behind a lexeme does not change it. -/
theorem lexeme?_of_inside
    (inside : ∀ lexeme, lexeme? c (front ++ back) = some lexeme →
      lexeme.text.length ≤ (c :: front).length) :
    lexeme? c (front ++ back) = lexeme? c front := by
  have numeral : numeralText (c :: front ++ back) = numeralText (c :: front) := by
    apply numeralText_of_inside
    by_cases none : numeralText (c :: front ++ back) = []
    · rw [none]
      exact Nat.zero_le _
    · exact inside (.number (numeralText (c :: front ++ back)))
        (if_pos (by simpa using none))
  unfold lexeme? at inside ⊢
  dsimp only at inside ⊢
  rw [← List.cons_append, numeral] at inside ⊢
  split
  · rfl
  · next absent =>
    rw [if_neg absent] at inside
    split
    · next starts =>
      have name := inside _ (if_pos starts)
      rw [takeWhile_of_inside (Nat.le_of_succ_le_succ name)]
    · rfl

theorem lexeme?_of_fits (found : lexeme? c (front ++ back) = some lexeme)
    (fits : lexeme.text.length ≤ (c :: front).length) : lexeme? c front = some lexeme := by
  rw [← found]
  refine (lexeme?_of_inside fun other same => ?_).symm
  cases same.symm.trans found
  exact fits

theorem exists_body (found : lexeme? c rest = some lexeme) :
    ∃ body behind, rest = body ++ behind ∧ lexeme.text = c :: body := by
  obtain ⟨behind, whole⟩ := (lexeme?_isPrefix found).1
  obtain ⟨first, body, spelled⟩ := List.exists_cons_of_ne_nil (lexeme?_isPrefix found).2
  rw [spelled, List.cons_append] at whole
  obtain ⟨rfl, rfl⟩ := List.cons.inj whole
  exact ⟨body, behind, rfl, spelled⟩

theorem isNamePart_of_isNameStart (starts : isNameStart c = true) : isNamePart c = true := by
  unfold isNameStart at starts
  unfold isNamePart Char.isAlphanum
  revert starts
  cases c.isAlpha <;> cases c.isDigit <;> simp

theorem Breaks.alone {b : Char} (breaks : Breaks b) (found : lexeme? c rest = some lexeme)
    (member : b ∈ lexeme.text) : lexeme.text.length = 1 := by
  unfold lexeme? at found
  dsimp only at found
  split at found
  · cases found
    exact absurd member breaks.not_mem_numeralText
  · split at found
    · next starts =>
      cases found
      rcases List.mem_cons.mp member with rfl | behind
      · exact absurd (isNamePart_of_isNameStart starts) (by simp [breaks.2.1])
      · exact absurd behind (not_mem_takeWhile breaks.2.1)
    · split at found
      · cases found
        rfl
      · split at found
        · cases found
          rfl
        · contradiction

/-- A character that breaks lexemes ends the one in front of it. -/
theorem lexeme?_of_breaks {b : Char} (breaks : Breaks b) :
    lexeme? c (front ++ b :: back) = lexeme? c front := by
  apply lexeme?_of_inside
  intro lexeme found
  apply Nat.le_of_not_lt
  intro longer
  have member : b ∈ lexeme.text := by
    obtain ⟨behind, whole⟩ := (lexeme?_isPrefix found).1
    have there : (lexeme.text ++ behind)[(c :: front).length]? = some b := by
      rw [whole, ← List.cons_append, List.getElem?_append_right (Nat.le_refl _), Nat.sub_self]
      rfl
    rw [List.getElem?_append_left longer] at there
    exact List.mem_of_getElem? there
  have single := breaks.alone found member
  simp only [List.length_cons] at longer
  omega

end Lexemes

inductive CutInto : Nat → List Char → List Token → Prop
  | done {position : Nat} : CutInto position [] []
  | gap {position : Nat} {c : Char} {rest : List Char} {tokens : List Token}
      (blank : isGap c = true) (later : CutInto (position + 1) rest tokens) :
      CutInto position (c :: rest) tokens
  | token {position : Nat} {c : Char} {body rest : List Char} {lexeme : Lexeme}
      {tokens : List Token} (solid : isGap c = false)
      (found : lexeme? c (body ++ rest) = some lexeme) (spelled : lexeme.text = c :: body)
      (later : CutInto (position + (c :: body).length) rest tokens) :
      CutInto position (c :: (body ++ rest)) (⟨lexeme, position⟩ :: tokens)

theorem tokensFrom_eq_ok_iff {position : Nat} {cs : List Char} {tokens : List Token} :
    tokensFrom position cs = .ok tokens ↔ CutInto position cs tokens := by
  constructor
  · intro cut
    fun_induction tokensFrom position cs generalizing tokens with
    | case1 => 
      cases cut
      exact .done
    | case2 position c rest blank ih => exact .gap blank (ih cut)
    | case3 position c rest solid missing => contradiction
    | case4 position c rest solid lexeme found size =>
      rename_i ih
      obtain ⟨later, read, same⟩ := exists_of_bind_eq_ok cut
      cases same
      obtain ⟨body, behind, rfl, spelled⟩ := exists_body found
      have length : size = (c :: body).length := congrArg List.length spelled
      have more : (body ++ behind).drop (size - 1) = behind := by simp [length]
      have cut := ih read
      rw [more, length] at cut
      exact .token (by simpa using solid) found spelled cut
  · intro cut
    induction cut with
    | done => rw [tokensFrom]
    | gap blank later ih =>
      rw [tokensFrom, if_pos blank, ih]
    | @token position c body rest lexeme tokens solid found spelled later ih =>
      have more : (body ++ rest).drop ((c :: body).length - 1) = rest := by simp
      rw [tokensFrom, if_neg (by simp [solid])]
      simp only [found, spelled]
      rw [more, ih]
      rfl

/-- The tokens of a text that is no longer than a bound, by recursion on the bound. -/
def cutWithin : Nat → Nat → List Char → Option (List Token)
  | _, _, [] => some []
  | 0, _, _ :: _ => none
  | bound + 1, position, c :: rest =>
    if isGap c then cutWithin bound (position + 1) rest
    else (lexeme? c rest).bind fun lexeme =>
      let size := lexeme.text.length
      (cutWithin bound (position + size) (rest.drop (size - 1))).map (⟨lexeme, position⟩ :: ·)

theorem cutWithin_eq {bound position : Nat} {cs : List Char} (short : cs.length ≤ bound) :
    cutWithin bound position cs = (tokensFrom position cs).toOption := by
  induction bound generalizing position cs with
  | zero =>
    obtain rfl := List.length_eq_zero_iff.mp (Nat.le_zero.mp short)
    rw [cutWithin, tokensFrom]
    rfl
  | succ bound ih =>
    cases cs with
    | nil =>
      rw [cutWithin, tokensFrom]
      rfl
    | cons c rest =>
      have shorter := Nat.le_of_succ_le_succ short
      have less (count : Nat) : (rest.drop count).length ≤ bound := by
        rw [List.length_drop]
        omega
      rw [cutWithin, tokensFrom]
      split
      · exact ih shorter
      · cases lexeme? c rest with
        | none => rfl
        | some lexeme =>
          dsimp only [Option.bind_some]
          rw [ih (less _)]
          cases tokensFrom (position + lexeme.text.length) (rest.drop (lexeme.text.length - 1)) <;>
            rfl

theorem cutWithin_eq_some_iff {position : Nat} {cs : List Char} {tokens : List Token} :
    cutWithin cs.length position cs = some tokens ↔ CutInto position cs tokens := by
  rw [cutWithin_eq (Nat.le_refl _), ← tokensFrom_eq_ok_iff]
  cases tokensFrom position cs <;> simp [Except.toOption]

instance {position : Nat} {cs : List Char} {tokens : List Token} :
    Decidable (CutInto position cs tokens) :=
  decidable_of_iff _ cutWithin_eq_some_iff

theorem tokenize_eq_ok_iff {source : List Char} {stream : TokenStream} :
    tokenize source = .ok stream ↔
      CutInto 0 source stream.tokens ∧ stream.stop = source.length := by
  rw [← tokensFrom_eq_ok_iff]
  unfold tokenize
  obtain ⟨tokens, stop⟩ := stream
  cases tokensFrom 0 source with
  | error fault => simp [bind, Except.bind]
  | ok cut => simp [bind, Except.bind, pure, Except.pure, eq_comm]

/-- Where the tokens begin, or the text ends if there are none. -/
def startOf (stop : Nat) (input : List Token) : Nat :=
  (input.head?.map (·.position)).getD stop

namespace CutInto

variable {position : Nat} {front back cs : List Char} {left right before after : List Token}
  {b : Char}

theorem single {c : Char} {lexeme : Lexeme} {tokens : List Token} (solid : isGap c = false)
    (found : lexeme? c cs = some lexeme) (spelled : lexeme.text = [c])
    (later : CutInto (position + 1) cs tokens) :
    CutInto position (c :: cs) (⟨lexeme, position⟩ :: tokens) :=
  @CutInto.token position c [] cs lexeme tokens solid found spelled later

/-- Texts can be joined where a character breaks lexemes. -/
theorem append (first : CutInto position front left) (breaks : Breaks b)
    (second : CutInto (position + front.length) (b :: back) right) :
    CutInto position (front ++ b :: back) (left ++ right) := by
  induction first with
  | done => exact second
  | gap blank later ih =>
    apply CutInto.gap blank
    apply ih
    rwa [List.length_cons, Nat.add_comm _ 1, ← Nat.add_assoc] at second
  | @token position c body rest lexeme tokens solid found spelled later ih =>
    rw [List.cons_append, List.append_assoc]
    refine .token solid ?_ spelled (ih ?_)
    · rw [← List.append_assoc, lexeme?_of_breaks breaks, found]
    · rwa [← List.cons_append, List.length_append, ← Nat.add_assoc] at second

/-- The lexemes do not depend on where a text begins. -/
theorem elsewhere (cut : CutInto position cs left) (other : Nat) :
    ∃ tokens, CutInto other cs tokens ∧ spelling tokens = spelling left := by
  induction cut generalizing other with
  | done => exact ⟨[], .done, rfl⟩
  | gap blank later ih =>
    obtain ⟨tokens, cut, same⟩ := ih (other + 1)
    exact ⟨tokens, .gap blank cut, same⟩
  | @token position c body rest lexeme tokens solid found spelled later ih =>
    obtain ⟨tokens, cut, same⟩ := ih (other + (c :: body).length)
    exact ⟨_, .token solid found spelled cut, by rw [spelling_cons, spelling_cons, same]⟩

/-- What stands in front of a token, or of the end, is cut into the tokens in front of it. -/
theorem exists_front (cut : CutInto position cs (before ++ after)) :
    ∃ front back, cs = front ++ back ∧
      startOf (position + cs.length) after = position + front.length ∧
      CutInto position front before := by
  generalize whole : before ++ after = tokens at cut
  induction cut generalizing before with
  | done =>
    obtain ⟨rfl, rfl⟩ := List.append_eq_nil_iff.mp whole
    exact ⟨[], [], rfl, rfl, .done⟩
  | @gap position c rest tokens blank later ih =>
    obtain ⟨front, back, rfl, start, cut⟩ := ih whole
    refine ⟨c :: front, back, rfl, ?_, .gap blank cut⟩
    rw [List.length_cons, List.length_cons, Nat.add_comm _ 1, Nat.add_comm _ 1, ← Nat.add_assoc,
      ← Nat.add_assoc, start]
  | @token position c body rest lexeme tokens solid found spelled later ih =>
    cases before with
    | nil =>
      cases whole
      exact ⟨[], _, rfl, rfl, .done⟩
    | cons t before =>
      rw [List.cons_append] at whole
      obtain ⟨rfl, rest_whole⟩ := List.cons.inj whole
      obtain ⟨front, back, rfl, start, cut⟩ := ih rest_whole
      refine ⟨c :: (body ++ front), back, by simp, ?_, .token solid ?_ spelled cut⟩
      · have stop : position + (c :: (body ++ (front ++ back))).length =
            position + (c :: body).length + (front ++ back).length := by
          simp only [List.length_cons, List.length_append]
          omega
        rw [stop, start]
        simp only [List.length_cons, List.length_append]
        omega
      · rw [← List.append_assoc] at found
        exact lexeme?_of_fits found (by simp [spelled])

end CutInto

end MatrixCalculator.Language
