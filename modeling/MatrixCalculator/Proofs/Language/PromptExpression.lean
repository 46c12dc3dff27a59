import MatrixCalculator.Proofs.Language.Promptness
import MatrixCalculator.Proofs.Language.Soundness

/-! The readers of expressions are prompt. The case of each is put together from those of the
readers that it calls, on shorter inputs or in front of it, and ends where a delimiter stands. -/
namespace MatrixCalculator.Language

variable {β : Type} {stop least : Nat} {t : Token} {input more rest other : List Token}

theorem Stops.of_like (stops : Stops least input)
    (like : nextLexeme? other = nextLexeme? input) : Stops least other :=
  fun c follows => stops c (like ▸ follows)

theorem exists_cons_of_next {lexeme : Lexeme} (next : nextLexeme? input = some lexeme) :
    ∃ t more, input = t :: more ∧ t.lexeme = lexeme := by
  cases input with
  | nil => contradiction
  | cons t more => exact ⟨t, more, rfl, Option.some.inj next⟩

theorem exists_cons_of_like (like : nextLexeme? other = nextLexeme? (t :: more)) :
    ∃ u others, other = u :: others ∧ u.lexeme = t.lexeme :=
  exists_cons_of_next like

theorem exists_operator_of_not_stops (goes : ¬ Stops least input) :
    ∃ t more, input = t :: more ∧
      ((∃ operator : UnaryOperator, t.lexeme = .symbol operator.symbol ∧
          operator ∈ [.factorial, .transpose]) ∨
        ∃ operator : BinaryOperator, t.lexeme = .symbol operator.symbol ∧
          least ≤ operator.leftPower) := by
  obtain ⟨c, follows_on⟩ := Classical.not_forall.mp goes
  obtain ⟨follows, operates⟩ := Classical.not_imp.mp follows_on
  obtain ⟨t, more, rfl, spelled⟩ := exists_cons_of_next follows
  refine ⟨t, more, rfl, ?_⟩
  cases found : trailingOperator? c with
  | some operator =>
    obtain ⟨rfl, trailing⟩ := trailingOperator?_eq_some_iff.mp found
    exact .inl ⟨operator, spelled, trailing⟩
  | none =>
    obtain ⟨operator, taken⟩ := Classical.not_forall.mp fun weaker => operates ⟨found, weaker⟩
    obtain ⟨binary, held⟩ := Classical.not_imp.mp taken
    obtain rfl := eq_symbol_of_binaryOperator? binary
    exact .inr ⟨operator, spelled, Nat.not_lt.mp held⟩

section Closing

def Closes (input : List Token) : Prop :=
  nextLexeme? input = some (.symbol ')')

theorem Closes.delimited (closes : Closes input) : Delimited input := by
  intro c follows
  rw [closes] at follows
  cases follows
  decide

theorem Closes.not_comma (closes : Closes input) : nextLexeme? input ≠ some (.symbol ',') := by
  rw [closes]
  decide

def readClosing (item : β) : Reader β := fun stop input => do
  let left ← readSymbol stop ')' input
  return (item, left)

theorem readClosing_closing (item : β) (stop : Nat) (rest : List Token) :
    readClosing item stop (tokens [.symbol ')'] ++ rest) = .ok (item, rest) := by
  rw [readClosing, tokens_cons, List.cons_append, readSymbol_cons rfl]
  rfl

theorem finishes_closing {Ends Ends' : List Token → Prop} (item : β)
    (ends : ∀ rest, Ends (tokens [.symbol ')'] ++ rest)) :
    Finishes Ends Ends' (readClosing item) :=
  ⟨[.symbol ')'], item, by decide, fun stop rest _ =>
    ⟨ends rest, readClosing_closing item stop rest⟩⟩

theorem readClosing_ne (item result : β) (rest : List Token) :
    readClosing item stop rest ≠ .ok (result, rest) := by
  intro done
  obtain ⟨left, closed, same⟩ := exists_of_bind_eq_ok done
  cases same
  have longer := congrArg List.length (of_readSymbol closed)
  exact Nat.succ_ne_self _ longer.symm

theorem prompt_closing {Ends : List Token → Prop} (item : β) (stop : Nat) (input : List Token) :
    Prompt Ends (readClosing item) stop input := by
  have completes : Completes Ends (readClosing item) [] :=
    ⟨[.symbol ')'], item, by decide, fun stop rest _ => readClosing_closing item stop rest⟩
  cases input with
  | nil =>
    apply Prompt.atEnd (.missing ')' none) _ completes
    rw [readClosing, readSymbol_eq]
    rfl
  | cons t more =>
    by_cases closes : t.lexeme = .symbol ')'
    · apply Prompt.taken item
      intro stop more
      rw [readClosing, readSymbol_cons closes]
      rfl
    · apply Prompt.refuses (.missing ')' (some t.lexeme.text)) _ completes
      intro stop more
      rw [readClosing, readSymbol_eq]
      simp only [if_neg closes]
      rfl

end Closing

def readOthers (first : Expr) : Reader (List Expr) := fun stop more =>
  match more with
  | [] => .ok ([first], [])
  | t :: rest =>
    if t.lexeme = .symbol ',' then do
      let (others, left) ← readElements stop rest
      return (first :: others, left)
    else .ok ([first], t :: rest)

theorem readOthers_last (first : Expr) (ended : nextLexeme? rest ≠ some (.symbol ',')) :
    readOthers first stop rest = .ok ([first], rest) := by
  cases rest with
  | nil => rfl
  | cons t more => exact if_neg fun same => ended (congrArg some same)

def readBehind (row : List Expr) : Reader (List (List Expr)) := fun stop more =>
  match more with
  | [] => .error ⟨.unclosedBracket, stop⟩
  | t :: rest =>
    if t.lexeme = .symbol ',' then readRows stop row rest
    else if isSeparator t || t.lexeme == .symbol ']' then readRows stop row (t :: rest)
    else .error ⟨.missingSeparator t.lexeme.text, t.position⟩

theorem readBehind_ended (row : List Expr) (ends : RowEnds input) :
    readBehind row stop input = readRows stop row input := by
  obtain ⟨t, rest, rfl, ended⟩ := ends
  have plain : t.lexeme ≠ .symbol ',' := by
    intro comma
    rw [isSeparator, comma] at ended
    revert ended
    decide
  have closed : (isSeparator t || t.lexeme == .symbol ']') = true := by
    simpa only [Bool.or_eq_true, beq_iff_eq] using ended
  simp only [readBehind, if_neg plain, if_pos closed]

theorem readRows_end (row : List Expr) (stop : Nat) (rest : List Token) :
    readRows stop row (tokens [.symbol ']'] ++ rest) =
      .ok (if row.isEmpty then [] else [row], rest) :=
  readRows_closing rfl

theorem readBehind_end (row : List Expr) (stop : Nat) (rest : List Token) :
    readBehind row stop (tokens [.symbol ']'] ++ rest) =
      .ok (if row.isEmpty then [] else [row], rest) :=
  (readBehind_ended row (rowEnds_of_closing rfl)).trans (readRows_end row stop rest)

section Fresh

def zero : Expr :=
  .number (Decimal.readDouble ['0'])

theorem readOperand_zero (notCalled : NotCalled rest) :
    readOperand stop (tokens [.number ['0']] ++ rest) = .ok (zero, rest) :=
  readsOperand_number ['0'] _ rest (spelling_tokens _) notCalled

theorem readExpression_zero (delimited : Delimited rest) :
    readExpression stop least (tokens [.number ['0']] ++ rest) = .ok (zero, rest) := by
  have read := (@readsOperand_number stop ['0']).marked (tokens [.number ['0']]) rest least
    (spelling_tokens _) delimited.notCalled
  rw [read]
  exact readExtension_stops delimited.stops

theorem readExpression_name {text : List Char} (name : t.lexeme = .name text) :
    readExpression stop least [t] = .ok (.variable (String.ofList text), []) := by
  have read := (@readsOperand_name stop text).marked [t] [] least
    (congrArg (fun lexeme => [lexeme]) name) (by rintro ⟨⟩)
  rw [List.append_nil] at read
  rw [read]
  exact readExtension_stops fun c follows => by contradiction

theorem completes_operand : Completes Delimited readOperand [] :=
  ⟨[.number ['0']], zero, by decide, fun _ _ ends => readOperand_zero ends.notCalled⟩

theorem completes_expression : Completes Delimited (fun stop => readExpression stop least) [] :=
  ⟨[.number ['0']], zero, by decide, fun _ _ ends => readExpression_zero ends⟩

theorem finishes_extension (first : Expr) :
    Finishes Delimited Delimited fun stop => readExtension stop least first :=
  ⟨[], first, by decide, fun _ _ ends => ⟨ends, readExtension_stops ends.stops⟩⟩

theorem completes_rows (row : List Expr) :
    Completes Delimited (fun stop => readRows stop row) [] :=
  ⟨[.symbol ']'], _, by decide, fun stop rest _ => readRows_end row stop rest⟩

theorem finishes_others (first : Expr) : Finishes Delimited Closes (readOthers first) :=
  ⟨[], [first], by decide, fun _ _ closes =>
    ⟨closes.delimited, readOthers_last first closes.not_comma⟩⟩

theorem finishes_behind (row : List Expr) : Finishes Delimited Delimited (readBehind row) :=
  ⟨[.symbol ']'], _, by decide, fun stop rest _ =>
    ⟨delimited_cons_symbol rest rfl (by decide), readBehind_end row stop rest⟩⟩

end Fresh

structure AllPrompt (stop : Nat) (input : List Token) : Prop where
  operand : Prompt Delimited readOperand stop input
  extension : ∀ least first,
    Prompt Delimited (fun stop => readExtension stop least first) stop input
  expression : ∀ least, Prompt Delimited (fun stop => readExpression stop least) stop input
  elements : Prompt Closes readElements stop input
  rows : ∀ current, Prompt Delimited (fun stop => readRows stop current) stop input

theorem shorter_of_readElements {items : List Expr}
    (done : readElements stop input = .ok (items, rest)) : rest.length < input.length :=
  shorter_of_map done

theorem AllPrompt.arguments (all : AllPrompt stop input) :
    Prompt Delimited readArguments stop input := by
  have fresh : Completes Delimited readArguments [] := by
    refine ⟨[.symbol ')'], [], by decide, fun stop rest _ => ?_⟩
    rw [tokens_cons, List.nil_append, List.cons_append, readArguments_eq]
    rfl
  cases input with
  | nil => exact .atEnd .unexpectedEnd (by rw [readArguments_eq]) fresh
  | cons t more =>
    by_cases closes : t.lexeme = .symbol ')'
    · apply Prompt.taken []
      intro stop more
      rw [readArguments_eq]
      exact if_pos closes
    · refine Prompt.bind readElements readClosing (fun stop other like => ?_) all.elements
        shorter_of_readElements (fun _ => prompt_closing _ stop _)
        (fun done => absurd done (readClosing_ne _ _ _)) fresh
        (fun items => finishes_closing items fun _ => rfl)
      obtain ⟨u, others, rfl, same⟩ := exists_cons_of_like like
      rw [readArguments_eq]
      exact if_neg (same ▸ closes)

section Steps

variable (shorter : ∀ rest : List Token, rest.length < input.length → AllPrompt stop rest)
include shorter

theorem prompt_name (text : List Char) (position : Nat) (fewer : more.length < input.length) :
    Prompt Delimited readOperand stop (⟨.name text, position⟩ :: more) := by
  have behind (stop : Nat) (other : List Token) (notCalled : NotCalled other) :=
    @readsOperand_name stop text [⟨.name text, position⟩] other rfl notCalled
  apply Prompt.cons (fun stop more => readOperand stop (⟨.name text, position⟩ :: more))
    fun stop more => rfl
  by_cases called : nextLexeme? more = some (.symbol '(')
  · obtain ⟨t, rest, rfl, opening⟩ := exists_cons_of_next called
    apply Prompt.cons (Reader.into (.call (String.ofList text)) readArguments)
    · intro stop rest
      rw [readOperand_eq]
      exact if_pos opening
    · exact .map readArguments (.call (String.ofList text)) (fun stop input => rfl)
        (shorter rest (Nat.lt_of_succ_lt fewer)).arguments
  · apply Prompt.stays
    rintro stop other (like | ends)
    · exact behind stop other fun follows => called (like.symm.trans follows)
    · exact behind stop other ends.notCalled

theorem prompt_parenthesized (fewer : more.length < input.length) :
    Prompt Delimited (Reader.followedBy (fun stop => readExpression stop 0) readClosing)
      stop more := by
  have finish (item : Expr) : Finishes Delimited Delimited (readClosing item) :=
    finishes_closing item fun rest => delimited_cons_symbol rest rfl (by decide)
  exact .bind (fun stop => readExpression stop 0) readClosing (fun _ _ _ => rfl)
    ((shorter more fewer).expression 0) shorter_of_readExpression
    (fun _ => prompt_closing _ stop _) (fun done => absurd done (readClosing_ne _ _ _))
    (completes_expression.bind (fun _ _ => rfl) finish) finish

theorem prompt_operand : Prompt Delimited readOperand stop input := by
  cases input with
  | nil => exact .atEnd .unexpectedEnd (by rw [readOperand_eq]) completes_operand
  | cons t more =>
    have all := shorter more (Nat.lt_succ_self _)
    obtain ⟨lexeme, position⟩ := t
    cases lexeme with
    | number text =>
      apply Prompt.taken (.number (Decimal.readDouble text))
      intro stop more
      rw [readOperand_eq]
    | lineBreak =>
      apply Prompt.refuses .unexpectedLineBreak _ completes_operand
      intro stop more
      rw [readOperand_eq]
    | name text => exact prompt_name shorter text position (Nat.lt_succ_self _)
    | symbol c =>
      cases leads : leadingOperator? c with
      | some operator =>
        apply Prompt.cons (Reader.into (.unary operator) readOperand)
        · intro stop more
          rw [readOperand_eq]
          simp only [leads]
          rfl
        · exact .map readOperand (.unary operator) (fun stop input => rfl) all.operand
      | none =>
        by_cases parenthesis : c = '('
        · subst parenthesis
          apply Prompt.cons (Reader.followedBy (fun stop => readExpression stop 0) readClosing)
          · intro stop more
            rw [readOperand_eq]
            rfl
          · exact prompt_parenthesized shorter (Nat.lt_succ_self _)
        · by_cases bracket : c = '['
          · subst bracket
            apply Prompt.cons (Reader.into .matrix fun stop => readRows stop [])
            · intro stop more
              rw [readOperand_eq]
              rfl
            · exact .map (fun stop => readRows stop []) .matrix (fun stop input => rfl)
                (all.rows [])
          · apply Prompt.refuses (.unexpectedToken [c]) _ completes_operand
            intro stop more
            rw [readOperand_eq]
            simp only [leads, if_neg parenthesis, if_neg bracket]

theorem prompt_extension (least : Nat) (first : Expr) :
    Prompt Delimited (fun stop => readExtension stop least first) stop input := by
  by_cases stops : Stops least input
  · exact .stays fun stop other like =>
      readExtension_stops (like.elim stops.of_like Delimited.stops)
  · obtain ⟨t, more, rfl, ⟨operator, spelled, trailing⟩ | ⟨operator, spelled, held⟩⟩ :=
      exists_operator_of_not_stops stops
    all_goals have all := shorter more (Nat.lt_succ_self _)
    · exact .cons (fun stop => readExtension stop least (.unary operator first))
        (fun stop more => readExtension_trailing spelled trailing) (all.extension least _)
    · apply Prompt.cons (Reader.followedBy (fun stop => readExpression stop operator.rightPower)
        fun second stop => readExtension stop least (.binary operator first second))
      · intro stop more
        rw [readExtension_eq]
        simp only [spelled, trailingOperator?_symbol, binaryOperator?_symbol,
          if_neg (Nat.not_lt.mpr held)]
        rfl
      · have finish (second : Expr) := @finishes_extension least (.binary operator first second)
        refine .bind (fun stop => readExpression stop operator.rightPower)
          (fun second stop => readExtension stop least (.binary operator first second))
          (fun _ _ _ => rfl) (all.expression _) shorter_of_readExpression (fun {_ rest} done => ?_)
          (fun _ ends => ends) (completes_expression.bind (fun _ _ => rfl) finish) finish
        have fewer : rest.length < more.length := shorter_of_readExpression done
        exact (shorter rest (Nat.lt_succ_of_lt fewer)).extension least _

theorem prompt_expression (operand : Prompt Delimited readOperand stop input) (least : Nat) :
    Prompt Delimited (fun stop => readExpression stop least) stop input :=
  .bind readOperand (fun first stop => readExtension stop least first)
    (fun stop other _ => readExpression_eq stop least other) operand shorter_of_readOperand
    (fun done => (shorter _ (shorter_of_readOperand done)).extension least _)
    (fun _ ends => ends) completes_expression finishes_extension

theorem prompt_others (first : Expr) (fewer : rest.length < input.length) :
    Prompt Closes (readOthers first) stop rest := by
  by_cases comma : nextLexeme? rest = some (.symbol ',')
  · obtain ⟨t, more, rfl, spelled⟩ := exists_cons_of_next comma
    apply Prompt.cons (Reader.into (first :: ·) readElements)
    · exact fun stop more => if_pos spelled
    · exact .map readElements (first :: ·) (fun stop input => rfl)
        (shorter more (Nat.lt_of_succ_lt fewer)).elements
  · refine .stays fun stop other like => readOthers_last first ?_
    rcases like with same | closes
    · exact fun follows => comma (same.symm.trans follows)
    · exact Closes.not_comma closes

theorem prompt_elements
    (expression : Prompt Delimited (fun stop => readExpression stop 0) stop input) :
    Prompt Closes readElements stop input :=
  .bind (fun stop => readExpression stop 0) readOthers
    (fun stop other _ => readElements_eq stop other) expression shorter_of_readExpression
    (fun done => prompt_others shorter _ (shorter_of_readExpression done))
    (fun _ closes => closes.delimited)
    (completes_expression.bind (fun stop _ => readElements_eq stop _) finishes_others)
    finishes_others

theorem prompt_rowEnds {read : Reader (List (List Expr))} (row : List Expr)
    (ends : isSeparator t = true ∨ t.lexeme = .symbol ']') (fewer : more.length < input.length)
    (same : ∀ stop more, read stop (t :: more) = readRows stop row (t :: more)) :
    Prompt Delimited read stop (t :: more) := by
  by_cases closes : t.lexeme = .symbol ']'
  · exact .taken (if row.isEmpty then [] else [row])
      fun stop more => (same stop more).trans (readRows_closing closes)
  · have separates := ends.resolve_right closes
    apply Prompt.cons (Reader.into (fun rows => if row.isEmpty then rows else row :: rows)
      fun stop => readRows stop [])
    · intro stop more
      rw [same, readRows_eq]
      simp only [if_neg closes, if_pos separates]
      rfl
    · exact .map (fun stop => readRows stop [])
        (fun rows => if row.isEmpty then rows else row :: rows) (fun stop input => rfl)
        ((shorter more fewer).rows [])

theorem prompt_behind (row : List Expr) (fewer : rest.length < input.length) :
    Prompt Delimited (readBehind row) stop rest := by
  have completes : Completes Delimited (readBehind row) [] :=
    ⟨[.symbol ']'], _, by decide, fun stop rest _ => readBehind_end row stop rest⟩
  cases rest with
  | nil => exact .atEnd .unclosedBracket rfl completes
  | cons t more =>
    have behind := Nat.lt_of_succ_lt fewer
    by_cases ends : isSeparator t = true ∨ t.lexeme = .symbol ']'
    · exact prompt_rowEnds shorter row ends behind
        fun stop more => readBehind_ended row ⟨t, more, rfl, ends⟩
    · by_cases comma : t.lexeme = .symbol ','
      · exact .cons (fun stop => readRows stop row) (fun stop more => if_pos comma)
          ((shorter more behind).rows row)
      · apply Prompt.refuses (.missingSeparator t.lexeme.text) _ completes
        intro stop more
        have goes : ¬(isSeparator t || t.lexeme == .symbol ']') = true := by
          simpa only [Bool.or_eq_true, beq_iff_eq] using ends
        simp only [readBehind, if_neg comma, if_neg goes]

theorem prompt_rows
    (expression : Prompt Delimited (fun stop => readExpression stop 0) stop input)
    (row : List Expr) : Prompt Delimited (fun stop => readRows stop row) stop input := by
  cases input with
  | nil => exact .atEnd .unclosedBracket (by rw [readRows_eq]) (completes_rows row)
  | cons t more =>
    by_cases ends : isSeparator t = true ∨ t.lexeme = .symbol ']'
    · exact prompt_rowEnds shorter row ends (Nat.lt_succ_self _) fun stop more => rfl
    · refine .bind (fun stop => readExpression stop 0) (fun item => readBehind (row ++ [item]))
        (fun stop other like => ?_) expression shorter_of_readExpression
        (fun done => prompt_behind shorter _ (shorter_of_readExpression done))
        (fun _ delimited => delimited) (completes_rows row) (fun item => finishes_behind _)
      obtain ⟨u, others, rfl, same⟩ := exists_cons_of_like like
      obtain ⟨separates, closes⟩ := not_or.mp ends
      rw [readRows_eq]
      rw [isSeparator, ← same, ← isSeparator] at separates
      rw [← same] at closes
      simp only [if_neg closes, if_neg separates]
      rfl

end Steps

theorem allPrompt (stop : Nat) (input : List Token) : AllPrompt stop input := by
  -- Within one length the operand comes first: the other readers begin with it.
  induction size : input.length using Nat.strongRecOn generalizing input with
  | ind n ih =>
    subst size
    have shorter (rest : List Token) (fewer : rest.length < input.length) : AllPrompt stop rest :=
      ih rest.length fewer rest rfl
    have operand := prompt_operand shorter
    have expression := prompt_expression shorter operand
    exact ⟨operand, prompt_extension shorter, expression, prompt_elements shorter (expression 0),
      prompt_rows shorter (expression 0)⟩

end MatrixCalculator.Language
