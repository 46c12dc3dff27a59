import MatrixCalculator.Proofs.Language.Placement

/-! Other gaps around the tokens of a source. Every token is found again where gaps set it apart
from the others, so a respaced source has the same tree, or fails for the same cause. -/
namespace MatrixCalculator.Language

variable {position : Nat} {c : Char} {cs gap text : List Char} {words : List (List Char)}
  {tokens : List Token}

def Blank (gap : List Char) : Prop :=
  ∀ c ∈ gap, isGap c = true

instance (gap : List Char) : Decidable (Blank gap) :=
  decidable_of_iff (gap.all isGap = true) List.all_eq_true

/-- Words with gaps behind them, of which only the last one may be empty. -/
inductive Separated : List (List Char) → List Char → Prop
  | nil : Separated [] []
  | cons {word gap text : List Char} {words : List (List Char)} (blank : Blank gap)
      (apart : words ≠ [] → gap ≠ []) (later : Separated words text) :
      Separated (word :: words) (word ++ (gap ++ text))

/-- Separated words with a gap in front of them, which may be empty. -/
def Padded (words : List (List Char)) (text : List Char) : Prop :=
  ∃ margin body, Blank margin ∧ Separated words body ∧ text = margin ++ body

theorem breaks_of_gap (blank : isGap c = true) : Breaks c := by
  simp only [isGap, Bool.or_eq_true, beq_iff_eq] at blank
  rcases blank with (rfl | rfl) | rfl <;> exact ⟨by decide, by decide, by decide, by decide⟩

theorem CutInto.gaps (blank : Blank gap) (later : CutInto (position + gap.length) text tokens) :
    CutInto position (gap ++ text) tokens := by
  induction gap generalizing position with
  | nil => exact later
  | cons c gap ih =>
    obtain ⟨first, others⟩ := List.forall_mem_cons.mp blank
    refine .gap first (ih others ?_)
    rwa [List.length_cons, Nat.add_comm gap.length, ← Nat.add_assoc] at later

/-- A lexeme is found again in front of a gap, or of the end. -/
theorem lexeme?_separated {body rest : List Char} {lexeme : Lexeme}
    (found : lexeme? c (body ++ rest) = some lexeme) (spelled : lexeme.text = c :: body)
    (blank : Blank gap) (apart : words ≠ [] → gap ≠ []) (later : Separated words text) :
    lexeme? c (body ++ (gap ++ text)) = some lexeme := by
  have alone : lexeme? c body = some lexeme :=
    lexeme?_of_fits found (Nat.le_of_eq (by rw [spelled]))
  rcases gap with _ | ⟨b, gap⟩
  · obtain rfl : words = [] := Classical.not_not.mp fun some => apart some rfl
    cases later
    rwa [List.append_nil, List.append_nil]
  · rw [List.cons_append, lexeme?_of_breaks (breaks_of_gap (blank b List.mem_cons_self)), alone]

theorem CutInto.respaced (cut : CutInto position cs tokens) (other : Nat)
    (separated : Separated (tokens.map (·.lexeme.text)) text) :
    ∃ again, CutInto other text again ∧ spelling again = spelling tokens := by
  induction cut generalizing other text with
  | done =>
    cases separated
    exact ⟨[], .done, rfl⟩
  | gap blank later ih => exact ih other separated
  | @token position c body rest lexeme tokens solid found spelled later ih =>
    rw [List.map_cons] at separated
    rcases separated with _ | @⟨_, gap, text, _, blank, apart, behind⟩
    obtain ⟨again, cut, same⟩ := ih (other + (c :: body).length + gap.length) behind
    have separate := lexeme?_separated found spelled blank apart behind
    refine ⟨⟨lexeme, other⟩ :: again, ?_, by rw [spelling_cons, spelling_cons, same]⟩
    rw [spelled, List.cons_append]
    exact .token solid separate spelled (.gaps blank cut)

/-- A respaced source has the same tokens but for their positions. It has the same tree, or it
fails for the same cause, and so with the same message up to the position. -/
theorem parse_respaced {source text : String} {stream : TokenStream}
    (cut : tokenize source.toList = .ok stream)
    (padded : Padded (stream.tokens.map (·.lexeme.text)) text.toList) :
    (∃ again, tokenize text.toList = .ok again ∧
      spelling again.tokens = spelling stream.tokens) ∧
    (parse text).mapError (·.cause) = (parse source).mapError (·.cause) := by
  obtain ⟨margin, body, blank, separated, whole⟩ := padded
  obtain ⟨tokens, _⟩ := tokenize_eq_ok_iff.mp cut
  obtain ⟨again, cut_body, same⟩ := tokens.respaced (0 + margin.length) separated
  have cut_text : CutInto 0 text.toList again := whole ▸ .gaps blank cut_body
  refine ⟨⟨⟨again, text.toList.length⟩, tokenize_eq_ok_iff.mpr ⟨cut_text, rfl⟩, same⟩, ?_⟩
  rw [parse_eq_of_cut tokens, parse_eq_of_cut cut_text]
  exact statements_outline same

/-- A matrix literal that is not closed, in the second line. -/
theorem parse_respaced_unclosed :
    (∃ again, tokenize "\tx = 1.e+2 '\r\n [ .5".toList = .ok again ∧ spelling again.tokens =
      [.name ['x'], .symbol '=', .number ['1', '.', 'e', '+', '2'], .symbol '\'', .lineBreak,
        .symbol '[', .number ['.', '5']]) ∧
    (parse "\tx = 1.e+2 '\r\n [ .5").mapError (·.cause) =
      (parse "x=1.e+2'\n[.5").mapError (·.cause) := by
  have cut : tokenize "x=1.e+2'\n[.5".toList = .ok ⟨[⟨.name ['x'], 0⟩, ⟨.symbol '=', 1⟩,
      ⟨.number ['1', '.', 'e', '+', '2'], 2⟩, ⟨.symbol '\'', 7⟩, ⟨.lineBreak, 8⟩, ⟨.symbol '[', 9⟩,
      ⟨.number ['.', '5'], 10⟩], 12⟩ :=
    tokenize_eq_ok_iff.mpr ⟨by decide +kernel, rfl⟩
  have separated : Separated
      [['x'], ['='], ['1', '.', 'e', '+', '2'], ['\''], ['\n'], ['['], ['.', '5']]
      "x = 1.e+2 '\r\n [ .5".toList :=
    @Separated.cons _ [' '] _ _ (by decide) (by decide) <|
    @Separated.cons _ [' '] _ _ (by decide) (by decide) <|
    @Separated.cons _ [' '] _ _ (by decide) (by decide) <|
    @Separated.cons _ ['\r'] _ _ (by decide) (by decide) <|
    @Separated.cons _ [' '] _ _ (by decide) (by decide) <|
    @Separated.cons _ [' '] _ _ (by decide) (by decide) <|
    @Separated.cons _ [] _ _ (by decide) (by decide) .nil
  exact parse_respaced cut ⟨['\t'], _, by decide, separated, rfl⟩

end MatrixCalculator.Language
