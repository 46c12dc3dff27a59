import MatrixCalculator.Proofs.Language.Extension
import MatrixCalculator.Proofs.Language.Grammar

/-! Tokens and what they spell, and the tokens at which expressions, rows and statements end. -/
namespace MatrixCalculator.Language

variable {bound : Nat} {t : Token} {input more taken rest : List Token}

def spelling (input : List Token) : List Lexeme :=
  input.map (·.lexeme)

@[simp] theorem spelling_cons (t : Token) (rest : List Token) :
    spelling (t :: rest) = t.lexeme :: spelling rest :=
  rfl

theorem spelling_append (front back : List Token) :
    spelling (front ++ back) = spelling front ++ spelling back :=
  List.map_append

theorem spelling_eq_cons {lexeme : Lexeme} {lexemes : List Lexeme}
    (spelled : spelling taken = lexeme :: lexemes) :
    ∃ t more, taken = t :: more ∧ t.lexeme = lexeme ∧ spelling more = lexemes :=
  List.map_eq_cons_iff.mp spelled

theorem spelling_eq_append {front back : List Lexeme}
    (spelled : spelling taken = front ++ back) :
    ∃ left right, taken = left ++ right ∧ spelling left = front ∧ spelling right = back :=
  List.map_eq_append_iff.mp spelled

theorem spelling_eq_singleton {lexeme : Lexeme} (spelled : spelling taken = [lexeme]) :
    ∃ t, taken = [t] ∧ t.lexeme = lexeme :=
  List.map_eq_singleton_iff.mp spelled

theorem spelling_eq_concat {front : List Lexeme} {last : Lexeme}
    (spelled : spelling taken = front ++ [last]) :
    ∃ left t, taken = left ++ [t] ∧ spelling left = front ∧ t.lexeme = last := by
  obtain ⟨left, right, rfl, first, ended⟩ := spelling_eq_append spelled
  obtain ⟨t, rfl, last⟩ := spelling_eq_singleton ended
  exact ⟨left, t, rfl, first, last⟩

def tokens (lexemes : List Lexeme) : List Token :=
  lexemes.map (⟨·, 0⟩)

@[simp] theorem tokens_cons (lexeme : Lexeme) (lexemes : List Lexeme) :
    tokens (lexeme :: lexemes) = ⟨lexeme, 0⟩ :: tokens lexemes :=
  rfl

@[simp] theorem tokens_append (lexemes rest : List Lexeme) :
    tokens (lexemes ++ rest) = tokens lexemes ++ tokens rest :=
  List.map_append

@[simp] theorem spelling_tokens (lexemes : List Lexeme) : spelling (tokens lexemes) = lexemes := by
  simp [spelling, tokens, Function.comp_def]

theorem tokens_inj {lexemes lexemes' : List Lexeme} (same : tokens lexemes = tokens lexemes') : lexemes = lexemes' := by
  rw [← spelling_tokens lexemes, same, spelling_tokens]

/-- No bracket follows that would make a call of a name. -/
def NotCalled (input : List Token) : Prop :=
  nextLexeme? input ≠ some (.symbol '(')

/-- Nothing follows that an expression could go on with. -/
def Delimited (input : List Token) : Prop :=
  ∀ c, nextLexeme? input = some (.symbol c) → c ∈ [')', ']', ',', ';', '=']

theorem Delimited.stops (delimited : Delimited input) : Stops bound input := by
  intro c follows
  have delimiter := delimited c follows
  simp only [List.mem_cons, List.not_mem_nil, or_false] at delimiter
  obtain rfl | rfl | rfl | rfl | rfl := delimiter <;>
    exact ⟨rfl, fun operator found => by contradiction⟩

theorem Delimited.notCalled (delimited : Delimited input) : NotCalled input := by
  intro follows
  have delimiter := delimited _ follows
  revert delimiter
  decide

theorem delimited_cons (delimiter : ∀ c, t.lexeme = .symbol c → c ∈ [')', ']', ',', ';', '=']) :
    Delimited (t :: rest) :=
  fun c follows => delimiter c (Option.some.inj follows)

theorem delimited_cons_symbol {c : Char} (rest : List Token) (spelled : t.lexeme = .symbol c)
    (delimiter : c ∈ [')', ']', ',', ';', '=']) : Delimited (t :: rest) := by
  apply delimited_cons
  intro other same
  cases spelled.symm.trans same
  exact delimiter

theorem notCalled_cons_binary {operator : BinaryOperator}
    (spelled : t.lexeme = .symbol operator.symbol) : NotCalled (t :: rest) := by
  rw [NotCalled, nextLexeme?_cons, spelled]
  cases operator <;> decide

theorem notCalled_cons_trailing {operator : UnaryOperator}
    (spelled : t.lexeme = .symbol operator.symbol) : NotCalled (t :: rest) := by
  rw [NotCalled, nextLexeme?_cons, spelled]
  cases operator <;> decide

def RowEnds (input : List Token) : Prop :=
  ∃ t more, input = t :: more ∧ (isSeparator t = true ∨ t.lexeme = .symbol ']')

theorem isSeparator_iff {t : Token} :
    isSeparator t = true ↔ ∃ s : Separator, t.lexeme = s.lexeme := by
  simp only [isSeparator, Bool.or_eq_true, beq_iff_eq]
  constructor
  · rintro (spelled | spelled)
    · exact ⟨.lineBreak, spelled⟩
    · exact ⟨.semicolon, spelled⟩
  · rintro ⟨s, spelled⟩
    cases s
    · exact .inr spelled
    · exact .inl spelled

theorem isSeparator_of_lexeme {separator : Separator} (spelled : t.lexeme = separator.lexeme) :
    isSeparator t = true :=
  isSeparator_iff.mpr ⟨separator, spelled⟩

theorem delimited_of_isSeparator (separates : isSeparator t = true) :
    Delimited (t :: rest) := by
  obtain ⟨s, spelled⟩ := isSeparator_iff.mp separates
  apply delimited_cons
  intro c same
  cases s with
  | semicolon =>
    cases spelled.symm.trans same
    decide
  | lineBreak => cases spelled.symm.trans same

theorem RowEnds.delimited (ends : RowEnds input) : Delimited input := by
  obtain ⟨t, more, rfl, separates | closes⟩ := ends
  · exact delimited_of_isSeparator separates
  · exact delimited_cons_symbol _ closes (by decide)

theorem rowEnds_of_closing (closes : t.lexeme = .symbol ']') : RowEnds (t :: rest) :=
  ⟨t, rest, rfl, .inr closes⟩

/-- An operand starts with neither a separator nor a closing bracket. -/
theorem not_rowEnds_of_opens (opens : t.lexeme.opens = true) :
    isSeparator t = false ∧ t.lexeme ≠ .symbol ']' := by
  constructor
  · cases separates : isSeparator t with
    | false => rfl
    | true =>
      obtain ⟨s, spelled⟩ := isSeparator_iff.mp separates
      rw [spelled] at opens
      cases s <;> contradiction
  · intro closes
    rw [closes] at opens
    contradiction

def StatementEnds (input : List Token) : Prop :=
  ∀ t more, input = t :: more → isSeparator t = true

theorem StatementEnds.delimited (ends : StatementEnds input) : Delimited input := by
  cases input with
  | nil => exact fun c follows => by contradiction
  | cons t more => exact delimited_of_isSeparator (ends t more rfl)

end MatrixCalculator.Language
