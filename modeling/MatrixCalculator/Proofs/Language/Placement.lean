import MatrixCalculator.Proofs.Language.EarliestFault

/-! Where tokens stand does not matter for what is read. The lexemes alone settle the tree, how
far it reaches and why there is none; positions only say where a fault is reported. -/
namespace MatrixCalculator.Language

variable {β γ : Type} {read : Reader β} {lexemes later : List Lexeme} {lexeme : Lexeme}

theorem nextLexeme?_eq_head? (input : List Token) :
    nextLexeme? input = (spelling input).head? := by
  cases input <;> rfl

/-- What is left of an outcome without positions. -/
def outline : Except ParseFault (β × List Token) → Except ParseCause (β × List Lexeme)
  | .ok (item, rest) => .ok (item, spelling rest)
  | .error fault => .error fault.cause

section Outlines

variable {outcome : Except ParseFault (β × List Token)} {item : β} {cause : ParseCause}

theorem outline_eq_ok (outlined : outline outcome = .ok (item, later)) :
    ∃ rest, outcome = .ok (item, rest) ∧ spelling rest = later := by
  rcases outcome with fault | ⟨other, rest⟩
  · contradiction
  · cases outlined
    exact ⟨rest, rfl, rfl⟩

theorem outline_eq_error (outlined : outline outcome = .error cause) :
    ∃ fault, outcome = .error fault ∧ fault.cause = cause := by
  rcases outcome with fault | ⟨other, rest⟩
  · cases outlined
    exact ⟨fault, rfl, rfl⟩
  · contradiction

end Outlines

/-- The lexemes settle what the reader makes of them, wherever they stand. -/
def Settles (lexemes : List Lexeme) (read : Reader β) : Prop :=
  ∃ result, ∀ stop input, spelling input = lexemes → outline (read stop input) = result

namespace Settles

theorem atEnd (cause : ParseCause) (missing : ∀ stop, read stop [] = .error ⟨cause, stop⟩) :
    Settles [] read := by
  refine ⟨.error cause, fun stop input spelled => ?_⟩
  obtain rfl := List.map_eq_nil_iff.mp spelled
  rw [missing]
  rfl

theorem refuses (cause : ParseCause) (refused : ∀ stop t more, t.lexeme = lexeme →
    read stop (t :: more) = .error ⟨cause, t.position⟩) : Settles (lexeme :: later) read := by
  refine ⟨.error cause, fun stop input spelled => ?_⟩
  obtain ⟨t, more, rfl, first, _⟩ := spelling_eq_cons spelled
  rw [refused stop t more first]
  rfl

theorem congr (other : Reader β)
    (same : ∀ stop input, spelling input = lexemes → read stop input = other stop input)
    (settles : Settles lexemes other) : Settles lexemes read := by
  obtain ⟨result, settled⟩ := settles
  refine ⟨result, fun stop input spelled => ?_⟩
  rw [same stop input spelled, settled stop input spelled]

theorem stays (item : β) (stays : ∀ stop input, spelling input = lexemes →
    read stop input = .ok (item, input)) : Settles lexemes read := by
  refine ⟨.ok (item, lexemes), fun stop input spelled => ?_⟩
  rw [stays stop input spelled, outline, spelled]

/-- A first token, and what is read behind it. -/
theorem cons (next : Reader β)
    (same : ∀ stop t more, t.lexeme = lexeme → read stop (t :: more) = next stop more)
    (behind : Settles later next) : Settles (lexeme :: later) read := by
  obtain ⟨result, behind⟩ := behind
  refine ⟨result, fun stop input spelled => ?_⟩
  obtain ⟨t, more, rfl, first, others⟩ := spelling_eq_cons spelled
  rw [same stop t more first, behind stop more others]

theorem taken (item : β)
    (takes : ∀ stop t more, t.lexeme = lexeme → read stop (t :: more) = .ok (item, more)) :
    Settles (lexeme :: later) read :=
  cons (fun _ more => .ok (item, more)) takes (stays item fun _ _ _ => rfl)

theorem into (f : γ → β) {first : Reader γ} (head : Settles lexemes first) :
    Settles lexemes (Reader.into f first) := by
  obtain ⟨result, head⟩ := head
  refine ⟨result.map fun p => (f p.1, p.2), fun stop input spelled => ?_⟩
  rw [← head stop input spelled, Reader.into]
  rcases first stop input with fault | ⟨item, rest⟩ <;> rfl

/-- One reader, and the next one with what it has read. -/
theorem bind (first : Reader γ) (next : γ → Reader β)
    (same : ∀ stop input, spelling input = lexemes →
      read stop input = first stop input >>= fun p => next p.1 stop p.2)
    (head : Settles lexemes first)
    (shorter : ∀ {stop input item rest}, first stop input = .ok (item, rest) →
      rest.length < input.length)
    (behind : ∀ item later, later.length < lexemes.length → Settles later (next item)) :
    Settles lexemes read := by
  obtain ⟨result, head⟩ := head
  rcases result with cause | ⟨item, later⟩
  · refine ⟨.error cause, fun stop input spelled => ?_⟩
    obtain ⟨fault, failed, rfl⟩ := outline_eq_error (head stop input spelled)
    rw [same stop input spelled, failed]
    rfl
  · have fewer : later.length < lexemes.length := by
      obtain ⟨rest, read, rfl⟩ := outline_eq_ok (head 0 (tokens lexemes) (spelling_tokens lexemes))
      simpa [tokens, spelling] using shorter read
    obtain ⟨result, behind⟩ := behind item later fewer
    refine ⟨result, fun stop input spelled => ?_⟩
    obtain ⟨rest, read, others⟩ := outline_eq_ok (head stop input spelled)
    rw [same stop input spelled, read]
    exact behind stop rest others

end Settles

theorem settles_closing (item : β) (lexemes : List Lexeme) :
    Settles lexemes (readClosing item) := by
  cases lexemes with
  | nil =>
    refine .atEnd (.missing ')' none) fun stop => ?_
    rw [readClosing, readSymbol_eq]
    rfl
  | cons lexeme later =>
    by_cases closes : lexeme = .symbol ')'
    · subst closes
      refine .taken item fun stop t more spelled => ?_
      rw [readClosing, readSymbol_cons spelled]
      rfl
    · refine .refuses (.missing ')' (some lexeme.text)) fun stop t more spelled => ?_
      rw [readClosing, readSymbol_eq]
      simp only [spelled, if_neg closes]
      rfl

structure AllSettled (lexemes : List Lexeme) : Prop where
  operand : Settles lexemes readOperand
  extension : ∀ least first, Settles lexemes fun stop => readExtension stop least first
  expression : ∀ least, Settles lexemes fun stop => readExpression stop least
  elements : Settles lexemes readElements
  rows : ∀ row, Settles lexemes fun stop => readRows stop row

theorem AllSettled.arguments (all : AllSettled lexemes) : Settles lexemes readArguments := by
  cases lexemes with
  | nil =>
    refine .atEnd .unexpectedEnd fun stop => ?_
    rw [readArguments_eq]
  | cons lexeme later =>
    by_cases closes : lexeme = .symbol ')'
    · refine .taken [] fun stop t more spelled => ?_
      rw [readArguments_eq]
      exact if_pos (spelled.trans closes)
    · refine .bind readElements readClosing (fun stop input spelled => ?_) all.elements
        shorter_of_readElements fun items later _ => settles_closing items later
      obtain ⟨t, more, rfl, rfl, _⟩ := spelling_eq_cons spelled
      rw [readArguments_eq]
      exact if_neg closes

section Steps

variable (shorter : ∀ later : List Lexeme, later.length < lexemes.length → AllSettled later)
include shorter

theorem settles_name (text : List Char) (fewer : later.length < lexemes.length) :
    Settles (.name text :: later) readOperand := by
  refine .cons (fun stop more => readOperand stop (⟨.name text, 0⟩ :: more))
    (fun stop t more spelled => ?_) ?_
  · rw [readOperand_eq, readOperand_eq]
    simp only [spelled]
  · rcases later with _ | ⟨lexeme, later⟩
    · refine .stays (.variable (String.ofList text)) fun stop input spelled => ?_
      obtain rfl := List.map_eq_nil_iff.mp spelled
      rw [readOperand_eq]
    · by_cases opens : lexeme = .symbol '('
      · refine .cons (Reader.into (Expr.call (String.ofList text)) readArguments)
          (fun stop t more spelled => ?_)
          (.into _ (shorter later (Nat.lt_of_succ_lt fewer)).arguments)
        rw [readOperand_eq]
        exact if_pos (spelled.trans opens)
      · refine .stays (.variable (String.ofList text)) fun stop input spelled => ?_
        obtain ⟨t, more, rfl, rfl, _⟩ := spelling_eq_cons spelled
        rw [readOperand_eq]
        exact if_neg opens

theorem settles_parenthesized (fewer : later.length < lexemes.length) :
    Settles later (Reader.followedBy (fun stop => readExpression stop 0) readClosing) :=
  .bind (fun stop => readExpression stop 0) readClosing (fun _ _ _ => rfl)
    ((shorter later fewer).expression 0) shorter_of_readExpression
    fun item later _ => settles_closing item later

theorem settles_symbol (c : Char) (fewer : later.length < lexemes.length) :
    Settles (.symbol c :: later) readOperand := by
  have all := shorter later fewer
  cases leads : leadingOperator? c with
  | some operator =>
    refine .cons (Reader.into (.unary operator) readOperand) (fun stop t more spelled => ?_)
      (.into _ all.operand)
    rw [readOperand_eq]
    simp only [spelled, leads]
    rfl
  | none =>
    by_cases parenthesis : c = '('
    · subst parenthesis
      refine .cons (Reader.followedBy (fun stop => readExpression stop 0) readClosing)
        (fun stop t more spelled => ?_) (settles_parenthesized shorter fewer)
      rw [readOperand_eq]
      simp only [spelled]
      rfl
    · by_cases bracket : c = '['
      · subst bracket
        refine .cons (Reader.into .matrix fun stop => readRows stop [])
          (fun stop t more spelled => ?_) (.into _ (all.rows []))
        rw [readOperand_eq]
        simp only [spelled]
        rfl
      · refine .refuses (.unexpectedToken [c]) fun stop t more spelled => ?_
        rw [readOperand_eq]
        simp only [spelled, leads, if_neg parenthesis, if_neg bracket]

theorem settles_operand : Settles lexemes readOperand := by
  cases lexemes with
  | nil =>
    refine .atEnd .unexpectedEnd fun stop => ?_
    rw [readOperand_eq]
  | cons lexeme later =>
    cases lexeme with
    | number text =>
      refine .taken (.number (Decimal.readDouble text)) fun stop t more spelled => ?_
      rw [readOperand_eq]
      simp only [spelled]
    | name text => exact settles_name shorter text (Nat.lt_succ_self _)
    | symbol c => exact settles_symbol shorter c (Nat.lt_succ_self _)
    | lineBreak =>
      refine .refuses .unexpectedLineBreak fun stop t more spelled => ?_
      rw [readOperand_eq]
      simp only [spelled]

theorem settles_extension (least : Nat) (first : Expr) :
    Settles lexemes fun stop => readExtension stop least first := by
  by_cases stops : Stops least (tokens lexemes)
  · refine .stays first fun stop input spelled => readExtension_stops (stops.of_like ?_)
    rw [nextLexeme?_eq_head?, nextLexeme?_eq_head?, spelled, spelling_tokens]
  · obtain ⟨t, more, begins, operates⟩ := exists_operator_of_not_stops stops
    obtain rfl : lexemes = t.lexeme :: spelling more := by
      rw [← spelling_tokens lexemes, begins, spelling_cons]
    have all := shorter (spelling more) (Nat.lt_succ_self _)
    rcases operates with ⟨operator, operated, trailing⟩ | ⟨operator, operated, held⟩
    · exact .cons (fun stop => readExtension stop least (.unary operator first))
        (fun stop u others spelled => readExtension_trailing (spelled.trans operated) trailing)
        (all.extension least _)
    · refine .cons (Reader.followedBy (fun stop => readExpression stop operator.rightPower)
        fun second stop => readExtension stop least (.binary operator first second))
        (fun stop u others spelled => ?_) ?_
      · rw [readExtension_eq]
        simp only [spelled.trans operated, trailingOperator?_symbol, binaryOperator?_symbol,
          if_neg (Nat.not_lt.mpr held)]
        rfl
      · refine .bind (fun stop => readExpression stop operator.rightPower)
          (fun second stop => readExtension stop least (.binary operator first second))
          (fun _ _ _ => rfl) (all.expression _) shorter_of_readExpression
          fun second later fewer => ?_
        exact (shorter later (Nat.lt_succ_of_lt fewer)).extension least _

theorem settles_expression (operand : Settles lexemes readOperand) (least : Nat) :
    Settles lexemes fun stop => readExpression stop least :=
  .bind readOperand (fun first stop => readExtension stop least first)
    (fun stop input _ => readExpression_eq stop least input) operand shorter_of_readOperand
    fun first later fewer => (shorter later fewer).extension least first

theorem settles_others (first : Expr) (fewer : later.length < lexemes.length) :
    Settles later (readOthers first) := by
  by_cases comma : later.head? = some (.symbol ',')
  · obtain ⟨rest, rfl⟩ := List.head?_eq_some_iff.mp comma
    exact .cons (Reader.into (first :: ·) readElements)
      (fun stop t more spelled => if_pos spelled)
      (.into _ (shorter rest (Nat.lt_of_succ_lt fewer)).elements)
  · refine .stays [first] fun stop input spelled => readOthers_last first ?_
    rwa [nextLexeme?_eq_head?, spelled]

theorem settles_elements (expression : Settles lexemes fun stop => readExpression stop 0) :
    Settles lexemes readElements :=
  .bind (fun stop => readExpression stop 0) readOthers
    (fun stop input _ => readElements_eq stop input) expression shorter_of_readExpression
    fun first _ fewer => settles_others shorter first fewer

theorem settles_rowEnds {read : Reader (List (List Expr))} (row : List Expr)
    (ends : (∃ s : Separator, lexeme = s.lexeme) ∨ lexeme = .symbol ']')
    (fewer : later.length < lexemes.length)
    (same : ∀ stop t more, t.lexeme = lexeme →
      read stop (t :: more) = readRows stop row (t :: more)) :
    Settles (lexeme :: later) read := by
  by_cases closes : lexeme = .symbol ']'
  · exact .taken (if row.isEmpty then [] else [row])
      fun stop t more spelled => (same stop t more spelled).trans
        (readRows_closing (spelled.trans closes))
  · obtain ⟨s, separates⟩ := ends.resolve_right closes
    refine .cons (Reader.into (fun rows => if row.isEmpty then rows else row :: rows)
      fun stop => readRows stop []) (fun stop t more spelled => ?_)
      (.into _ ((shorter later fewer).rows []))
    rw [same stop t more spelled, readRows_eq]
    simp only [spelled, if_neg closes,
      if_pos (isSeparator_of_lexeme (spelled.trans separates))]
    rfl

theorem settles_behind (row : List Expr) (fewer : later.length < lexemes.length) :
    Settles later (readBehind row) := by
  rcases later with _ | ⟨lexeme, later⟩
  · exact .atEnd .unclosedBracket fun stop => rfl
  · have behind := Nat.lt_of_succ_lt fewer
    by_cases ends : (∃ s : Separator, lexeme = s.lexeme) ∨ lexeme = .symbol ']'
    · refine settles_rowEnds shorter row ends behind fun stop t more spelled => ?_
      subst spelled
      exact readBehind_ended row ⟨t, more, rfl, ends.imp_left isSeparator_iff.mpr⟩
    · by_cases comma : lexeme = .symbol ','
      · exact .cons (fun stop => readRows stop row)
          (fun stop t more spelled => if_pos (spelled.trans comma))
          ((shorter later behind).rows row)
      · refine .refuses (.missingSeparator lexeme.text) fun stop t more spelled => ?_
        subst spelled
        have goes : ¬(isSeparator t || t.lexeme == .symbol ']') = true := by
          simpa only [Bool.or_eq_true, beq_iff_eq, isSeparator_iff] using ends
        simp only [readBehind, if_neg comma, if_neg goes]

theorem settles_rows (expression : Settles lexemes fun stop => readExpression stop 0)
    (row : List Expr) : Settles lexemes fun stop => readRows stop row := by
  rcases lexemes with _ | ⟨lexeme, later⟩
  · refine .atEnd .unclosedBracket fun stop => ?_
    rw [readRows_eq]
  · by_cases ends : (∃ s : Separator, lexeme = s.lexeme) ∨ lexeme = .symbol ']'
    · exact settles_rowEnds shorter row ends (Nat.lt_succ_self _) fun _ _ _ _ => rfl
    · refine .bind (fun stop => readExpression stop 0) (fun item => readBehind (row ++ [item]))
        (fun stop input spelled => ?_) expression shorter_of_readExpression
        fun item later fewer => settles_behind shorter _ fewer
      obtain ⟨t, more, rfl, rfl, _⟩ := spelling_eq_cons spelled
      rw [← isSeparator_iff] at ends
      obtain ⟨separates, closes⟩ := not_or.mp ends
      rw [readRows_eq]
      simp only [if_neg closes, if_neg separates]
      rfl

end Steps

theorem allSettled (lexemes : List Lexeme) : AllSettled lexemes := by
  induction size : lexemes.length using Nat.strongRecOn generalizing lexemes with
  | ind n ih =>
    subst size
    have shorter (later : List Lexeme) (fewer : later.length < lexemes.length) :
        AllSettled later :=
      ih later.length fewer later rfl
    have operand := settles_operand shorter
    have expression := settles_expression shorter operand
    exact ⟨operand, settles_extension shorter, expression, settles_elements shorter (expression 0),
      settles_rows shorter (expression 0)⟩

section Statements

theorem settles_assignment (text : List Char) (later : List Lexeme) :
    Settles (.name text :: .symbol '=' :: later) readStatement := by
  let read : Reader Statement :=
    Reader.into (⟨·, some (String.ofList text)⟩) fun stop => readExpression stop 0
  refine .congr (fun stop input => read stop (input.drop 2)) (fun stop input spelled => ?_) ?_
  · obtain ⟨⟨_, p⟩, more, rfl, rfl, others⟩ := spelling_eq_cons spelled
    obtain ⟨⟨_, q⟩, rest, rfl, rfl, _⟩ := spelling_eq_cons others
    exact readStatement_assignment stop text p q rest
  · exact .cons (fun stop more => read stop (more.drop 1)) (fun _ _ _ _ => rfl)
      (.cons read (fun _ _ _ _ => rfl) (.into _ ((allSettled later).expression 0)))

theorem settles_statement (lexemes : List Lexeme) : Settles lexemes readStatement := by
  by_cases assigns : ∃ text later, lexemes = .name text :: .symbol '=' :: later
  · obtain ⟨text, later, rfl⟩ := assigns
    exact settles_assignment text later
  · refine .congr (Reader.into (⟨·, none⟩) fun stop => readExpression stop 0)
      (fun stop input spelled => ?_) (.into _ ((allSettled lexemes).expression 0))
    rw [readStatement_expression]
    · rfl
    · rintro text p q rest rfl
      exact assigns ⟨text, spelling rest, spelled.symm⟩

theorem settles_later (first : Statement)
    (behind : ∀ lexeme rest, later = lexeme :: rest → Settles rest readStatements) :
    Settles later (readLater first) := by
  rcases later with _ | ⟨lexeme, rest⟩
  · refine .stays [first] fun stop input spelled => ?_
    obtain rfl := List.map_eq_nil_iff.mp spelled
    rfl
  · by_cases separates : ∃ s : Separator, lexeme = s.lexeme
    · obtain ⟨s, separates⟩ := separates
      exact .cons (Reader.into (first :: ·) readStatements)
        (fun stop t more spelled => if_pos (isSeparator_of_lexeme (spelled.trans separates)))
        (.into _ (behind lexeme rest rfl))
    · refine .refuses (.unexpectedToken lexeme.text) fun stop t more spelled => ?_
      subst spelled
      exact if_neg (mt isSeparator_iff.mp separates)

theorem settles_statements (lexemes : List Lexeme) : Settles lexemes readStatements := by
  induction size : lexemes.length using Nat.strongRecOn generalizing lexemes with
  | ind n ih =>
    subst size
    rcases lexemes with _ | ⟨lexeme, later⟩
    · refine .stays [] fun stop input spelled => ?_
      obtain rfl := List.map_eq_nil_iff.mp spelled
      exact readStatements_nil stop
    · by_cases separates : ∃ s : Separator, lexeme = s.lexeme
      · obtain ⟨s, separates⟩ := separates
        exact .cons readStatements (fun stop t more spelled =>
            readStatements_separator (isSeparator_of_lexeme (spelled.trans separates)))
          (ih later.length (Nat.lt_succ_self _) later rfl)
      · refine .bind readStatement readLater (fun stop input spelled => ?_)
          (settles_statement _) shorter_of_readStatement fun first later fewer => ?_
        · obtain ⟨t, more, rfl, rfl, _⟩ := spelling_eq_cons spelled
          exact readStatements_statement (mt isSeparator_iff.mp separates)
        · refine settles_later first ?_
          rintro lexeme rest rfl
          exact ih rest.length (Nat.lt_of_succ_lt fewer) rest rfl

/-- Statements, or why there are none, do not depend on where the tokens stand. -/
theorem statements_outline {stop stop' : Nat} {input other : List Token}
    (same : spelling other = spelling input) :
    (statements stop' other).mapError (·.cause) = (statements stop input).mapError (·.cause) := by
  obtain ⟨result, settled⟩ := settles_statements (spelling input)
  have forget (stop : Nat) (input : List Token) : (statements stop input).mapError (·.cause) =
      (outline (readStatements stop input)).map (·.1) := by
    rw [readStatements]
    cases statements stop input <;> rfl
  rw [forget, forget, settled stop' other same, settled stop input rfl]

end Statements

end MatrixCalculator.Language
