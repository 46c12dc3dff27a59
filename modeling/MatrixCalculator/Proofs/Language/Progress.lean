import MatrixCalculator.Proofs.Language.Following
import MatrixCalculator.Proofs.Language.Rounds

/-! Recursive descent follows the readers of token lists. A procedure that begins with another one
on the same tokens may lose a little more than that one and go one level deeper; behind the first
token there are twelve steps, three levels and fuel for four calls for what comes next. -/
namespace MatrixCalculator.Language.Descent

variable {s : Scope} {c : Cursor} {fuel depth least : Nat} {t : Token}
  {input more rest : List Token}

section Bounds

variable (s : Scope) (input : List Token)

def OperandFollows : Prop :=
  ∀ c fuel depth, s.Faces c input → depth + 3 * input.length ≤ s.ceiling →
    4 * input.length + 1 ≤ fuel →
    s.Follows (c.balance + 9) (c.balance - 2) (run (operand s.tape fuel depth) c)
      (readOperand s.stop input)

def ExpressionFollows : Prop :=
  ∀ c fuel depth least, s.Faces c input → depth + 3 * input.length + 1 ≤ s.ceiling →
    4 * input.length + 2 ≤ fuel →
    s.Follows (c.balance + 7) (c.balance - 3) (run (expression s.tape fuel depth least) c)
      (readHeld least s.stop input)

def ExtensionFollows : Prop :=
  ∀ c fuel depth least first, least ≤ postfixPower → s.Faces c input →
    depth + 3 * input.length ≤ s.ceiling → 4 * input.length + 1 ≤ fuel →
    s.Follows (c.balance - 1) (c.balance - 1) (run (extend s.tape fuel depth least first) c)
      (readExtension s.stop least first input)

def ArgumentsFollow : Prop :=
  ∀ c fuel depth before last, s.Faces c input → depth + 3 * input.length ≤ s.ceiling →
    4 * input.length + 1 ≤ fuel →
    s.Follows (c.balance - 1) (c.balance - 1)
      (run (moreArguments s.tape fuel depth (before ++ [last])) c)
      ((readOthers last s.stop input).map (Prod.map (before ++ ·) id))

def RowsFollow : Prop :=
  ∀ c fuel depth rows, s.Faces c input → depth + 3 * input.length + 2 ≤ s.ceiling →
    4 * input.length + 3 ≤ fuel →
    s.Follows c.balance (c.balance - 5) (run (matrixRows s.tape fuel depth rows) c)
      (readRounds rows s.stop input)

structure AllFollow : Prop where
  operand : OperandFollows s input
  expression : ExpressionFollows s input
  extension : ExtensionFollows s input
  arguments : ArgumentsFollow s input
  rows : RowsFollow s input

end Bounds

theorem readHeld_zero (stop : Nat) (input : List Token) :
    readHeld 0 stop input = readExpression stop 0 input :=
  if_neg (by decide)

/-- An expression in which all operators are taken in. -/
theorem ExpressionFollows.whole (expression : ExpressionFollows s input) (depth : Nat)
    (faces : s.Faces c input) (bound : depth + 3 * input.length + 1 ≤ s.ceiling)
    (enough : 4 * input.length + 2 ≤ fuel) :
    s.Follows (c.balance + 7) (c.balance - 3) (run (Descent.expression s.tape fuel depth 0) c)
      (readExpression s.stop 0 input) := by
  rw [← readHeld_zero]
  exact expression c fuel depth 0 faces bound enough

/-- The first argument of a call is read behind no others. -/
theorem ArgumentsFollow.first (arguments : ArgumentsFollow s input) (first : Expr)
    (faces : s.Faces c input) (bound : depth + 3 * input.length ≤ s.ceiling)
    (enough : 4 * input.length + 1 ≤ fuel) :
    s.Follows (c.balance - 1) (c.balance - 1) (run (moreArguments s.tape fuel depth [first]) c)
      (readOthers first s.stop input) := by
  have same : (readOthers first s.stop input).map (Prod.map ([] ++ ·) id) =
      readOthers first s.stop input := by
    cases readOthers first s.stop input <;> rfl
  rw [← same]
  exact arguments c fuel depth [] first faces bound enough

theorem follows_matrix (rows : RowsFollow s input) (faces : s.Faces c input)
    (bound : depth + 3 * input.length + 2 ≤ s.ceiling) (enough : 4 * input.length + 4 ≤ fuel) :
    s.Follows (c.balance - 1) (c.balance - 6) (run (matrix s.tape fuel depth) c)
      (readMatrix s.stop input) := by
  cases fuel with
  | zero => omega
  | succ fuel =>
    have entered := faces.entered (show depth ≤ s.ceiling by omega)
    have inner := rows _ fuel depth ⟨[], []⟩ entered bound (by omega)
    rw [readRounds_fresh, Cursor.balance_entered] at inner
    rw [matrix, run_enter_bind, readMatrix]
    exact inner.bind (by omega) fun _ behind kept => .read behind kept

theorem follows_refuseNext {β : Type} {gain loss : Int} (faces : s.Faces c (t :: rest))
    (cause : List Char → ParseCause) (kept : loss ≤ c.balance - 1) :
    s.Follows gain loss (run (refuseNext s.tape cause : Descent β) c)
      (.error ⟨cause t.lexeme.text, t.position⟩) := by
  rw [refuseNext, run_bind_ok (run_peek faces)]
  exact .refuse faces.looked _ _ (by simpa using kept)

theorem follows_elementEnd (rows : Rows) (faces : s.Faces c input) :
    s.Follows (c.balance - 4) (c.balance - 5) (run (elementEnd s.tape rows) c)
      (readElementEnd rows s.stop input) := by
  obtain ⟨later, ended, behind, kept⟩ := (looks_seesSeparator.or
    ((looks_seesSymbol ']').or looks_seesEnd)) c.looked faces.looked
  rw [Cursor.balance_looked] at kept
  rw [elementEnd, run_bind_ok (run_seesSymbol faces ',')]
  unfold readElementEnd
  cases input with
  | nil =>
    rw [if_neg (by simp [nextLexeme?]), run_bind_ok ended]
    exact .read behind (by omega)
  | cons t more =>
    rw [nextLexeme?_cons] at ended ⊢
    dsimp only
    by_cases comma : t.lexeme = .symbol ','
    · rw [if_pos comma, comma, if_pos (beq_self_eq_true _), run_bind_ok (run_advance faces.looked)]
      exact .read faces.looked.moved
        (by simp only [Cursor.balance_moved, Cursor.balance_looked]; omega)
    · rw [if_neg comma, if_neg (by simpa using comma), run_bind_ok ended]
      by_cases ends : (isSeparator t || t.lexeme == .symbol ']') = true
      · rw [if_pos ends, if_pos (by simpa using ends)]
        exact .read behind (by omega)
      · rw [if_neg ends, if_neg (by simpa using ends)]
        exact follows_refuseNext behind _ (by omega)

theorem follows_matrixRound (expression : ExpressionFollows s input) (rows : Rows)
    (faces : s.Faces c input) (bound : depth + 3 * input.length + 2 ≤ s.ceiling)
    (enough : 4 * input.length + 2 ≤ fuel) :
    s.Follows c.balance (c.balance - 5)
      (run (matrixRound s.tape (Descent.expression s.tape fuel (depth + 1) 0) rows) c)
      (readRound rows s.stop input) := by
  have looked := faces.looked.looked
  rw [matrixRound, run_bind_ok (run_peek faces)]
  unfold readRound
  cases input with
  | nil => exact .refuse faces.looked _ _ (by rw [Cursor.balance_looked]; omega)
  | cons t more =>
    have goesOn : ¬ nextLexeme? (t :: more) = none := by simp
    dsimp only
    by_cases closes : nextLexeme? (t :: more) = some (.symbol ']')
    · rw [if_pos closes, if_pos (Option.some.inj closes), run_bind_ok (run_advance faces.looked)]
      exact .read faces.looked.moved
        (by simp only [Cursor.balance_moved, Cursor.balance_looked]; omega)
    · rw [if_neg closes, if_neg (fun same => closes (congrArg some same)), if_neg goesOn,
        run_bind_ok (run_seesSeparator faces.looked), List.head?_cons, Option.any_some]
      by_cases separates : isSeparator t = true
      · rw [if_pos separates, if_pos separates, run_bind_ok (run_advance looked)]
        exact .read looked.moved (by simp only [Cursor.balance_moved, Cursor.balance_looked]; omega)
      · rw [if_neg separates, if_neg separates]
        have element := expression.whole (depth + 1) looked (by omega) enough
        simp only [Cursor.balance_looked] at element
        refine element.bind (by omega) fun {item _ _} _ behind kept => ?_
        exact (follows_elementEnd (rows.add item) behind).mono (by omega) (by omega)

theorem follows_afterSymbol (all : AllFollow s input) (symbol : Char) (position : Nat)
    (faces : s.Faces c input) (bound : depth + 3 * input.length + 2 ≤ s.ceiling)
    (enough : 4 * input.length + 4 ≤ fuel) :
    s.Follows (c.balance - 1) (c.balance - 6)
      (run (afterSymbol s.tape (expression s.tape fuel depth signPower)
        (expression s.tape fuel depth 0) (matrix s.tape fuel depth) symbol position) c)
      (readOperand s.stop (⟨.symbol symbol, position⟩ :: input)) := by
  rw [afterSymbol, readOperand_eq]
  dsimp only
  cases leadingOperator? symbol with
  | some operator =>
    have held : readHeld signPower s.stop input = readOperand s.stop input := if_pos (by decide)
    have signed := all.expression c fuel depth signPower faces (by omega) (by omega)
    rw [held] at signed
    exact signed.bind (by omega) fun _ behind kept =>
      .read behind (by omega)
  | none =>
    dsimp only
    by_cases parenthesis : symbol = '('
    · rw [if_pos parenthesis, if_pos parenthesis]
      have inner := all.expression.whole depth faces (by omega)
        (show 4 * input.length + 2 ≤ fuel by omega)
      refine inner.bind (by omega) fun _ behind kept => ?_
      refine .takeSymbol behind (by omega) fun _ closed => .read closed ?_
      simp only [Cursor.balance_moved, Cursor.balance_looked]
      omega
    · rw [if_neg parenthesis, if_neg parenthesis]
      by_cases bracket : symbol = '['
      · rw [if_pos bracket, if_pos bracket]
        exact follows_matrix all.rows faces bound enough
      · rw [if_neg bracket, if_neg bracket]
        exact .refuse faces _ _ (by omega)

theorem follows_statementEnd (all : List Statement) (faces : s.Faces c input) :
    s.Follows (c.balance - 2) (c.balance - 3) (run (statementEnd s.tape all) c)
      (readStatementEnd all s.stop input) := by
  obtain ⟨later, ended, behind, kept⟩ := (looks_seesSeparator.or looks_seesEnd) c faces
  rw [statementEnd, run_bind_ok ended]
  unfold readStatementEnd
  cases input with
  | nil => exact .read behind (by omega)
  | cons t more =>
    dsimp only
    by_cases separates : isSeparator t = true
    · rw [if_pos separates, if_pos (by simpa using separates)]
      exact .read behind (by omega)
    · rw [if_neg separates, if_neg (by simpa using separates)]
      exact follows_refuseNext behind _ (by omega)

theorem rightPower_le (operator : BinaryOperator) : operator.rightPower ≤ postfixPower := by
  cases operator <;> decide

/-- A sign holds its operand more strongly than any operator behind it. -/
theorem run_extend_strong (strong : postfixPower < least) (fuel depth : Nat) (first : Expr)
    (faces : s.Faces c input) :
    run (extend s.tape (fuel + 1) depth least first) c = some (.ok first, c.looked) := by
  have stronger (operator : BinaryOperator) : operator.leftPower < least := by
    refine Nat.lt_of_le_of_lt ?_ strong
    cases operator <;> decide
  rw [extend, run_bind_ok (run_peek faces)]
  dsimp only
  split
  · split
    · rw [if_pos strong]
      rfl
    · rw [if_pos (stronger _)]
      rfl
    · rfl
  · rfl

section Steps

variable (shorter : ∀ rest : List Token, rest.length < input.length → AllFollow s rest)
include shorter

theorem follows_callArguments (expression : ExpressionFollows s input) (faces : s.Faces c input)
    (bound : depth + 3 * input.length + 2 ≤ s.ceiling) (enough : 4 * input.length + 2 ≤ fuel) :
    s.Follows (c.balance - 1) (c.balance - 4)
      (run (callArguments s.tape (do
        let first ← Descent.expression s.tape fuel (depth + 1) 0
        moreArguments s.tape fuel depth [first])) c)
      (readInner s.stop input) := by
  rw [callArguments, run_bind_ok (run_seesSymbol faces ')'), readInner]
  by_cases closes : nextLexeme? input = some (.symbol ')')
  · rw [closes, if_pos (beq_self_eq_true _), if_pos rfl]
    exact .read faces.looked (by simp)
  · rw [if_neg (by simpa using closes), if_neg closes, readElements_eq]
    have first := expression.whole (depth + 1) faces.looked (by omega) enough
    rw [Cursor.balance_looked] at first
    refine first.bind (by omega) fun {item rest later} read behind kept => ?_
    have fewer := shorter_of_readExpression read
    exact ((shorter rest fewer).arguments.first item behind (by omega) (by omega)).mono
      (by omega) (by omega)

theorem follows_call (name : String) (faces : s.Faces c input)
    (bound : depth + 3 * input.length ≤ s.ceiling) (enough : 4 * input.length + 1 ≤ fuel) :
    s.Follows c.balance (c.balance - 3) (run (call s.tape fuel depth name) c)
      (readCall name s.stop input) := by
  cases fuel with
  | zero => omega
  | succ fuel =>
    have entered := faces.entered (show depth ≤ s.ceiling by omega)
    rw [call, run_enter_bind, readCall]
    refine .takeSymbol entered (by rw [Cursor.balance_entered]; omega)
      fun {item t rest} same opened => ?_
    subst same
    rw [List.length_cons] at bound enough
    have all := shorter rest (Nat.lt_succ_self _)
    have inner := follows_callArguments (fun later fewer => shorter later (Nat.lt_succ_of_lt fewer))
      all.expression opened (show depth + 3 * rest.length + 2 ≤ s.ceiling by omega)
      (show 4 * rest.length + 2 ≤ fuel by omega)
    simp only [readArguments_inner, bind_assoc, pure_bind]
    simp only [Cursor.balance_moved, Cursor.balance_looked, Cursor.balance_entered] at inner
    refine inner.bind (by omega) fun {arguments left later} read behind kept => ?_
    refine .takeSymbol behind (by omega) fun {_ _ _} _ closed => .read closed ?_
    simp only [Cursor.balance_moved, Cursor.balance_looked]
    omega

theorem follows_afterName (text : List Char) (position : Nat) (faces : s.Faces c input)
    (bound : depth + 3 * input.length ≤ s.ceiling) (enough : 4 * input.length + 1 ≤ fuel) :
    s.Follows (c.balance - 1) (c.balance - 4)
      (run (afterName s.tape (call s.tape fuel depth (String.ofList text)) (String.ofList text)) c)
      (readOperand s.stop (⟨.name text, position⟩ :: input)) := by
  rw [afterName, run_bind_ok (run_seesSymbol faces '(')]
  by_cases called : nextLexeme? input = some (.symbol '(')
  · have inner := follows_call shorter (String.ofList text) faces.looked bound enough
    rw [Cursor.balance_looked] at inner
    obtain ⟨t, rest, rfl, opens⟩ := exists_cons_of_next called
    rw [readCall, readSymbol_cons opens] at inner
    rw [called, if_pos (beq_self_eq_true _), readOperand_eq]
    simp only [if_pos opens]
    exact inner.mono (Int.le_refl _) (by omega)
  · rw [if_neg (by simpa using called)]
    have plain := @readsOperand_name s.stop text [⟨.name text, position⟩] input rfl called
    rw [List.singleton_append] at plain
    rw [plain]
    exact .read faces.looked (by simp)

theorem follows_operand : OperandFollows s input := by
  intro c fuel depth faces bound enough
  cases fuel with
  | zero => omega
  | succ fuel =>
    have entered := faces.entered (show depth ≤ s.ceiling by omega)
    rw [operand, run_enter_bind]
    cases input with
    | nil =>
      rw [run_bind_ok (run_advance_end entered), readOperand_eq]
      exact .refuse entered.looked _ _
        (by simp only [Cursor.balance_looked, Cursor.balance_entered]; omega)
    | cons t more =>
      rw [List.length_cons] at bound enough
      have all := shorter more (Nat.lt_succ_self _)
      have passed := entered.moved
      have fewer (rest : List Token) (less : rest.length < more.length) : AllFollow s rest :=
        shorter rest (Nat.lt_succ_of_lt less)
      rw [run_bind_ok (run_advance entered)]
      obtain ⟨lexeme, position⟩ := t
      cases lexeme with
      | number text =>
        rw [readOperand_eq]
        exact .read passed (by simp only [Cursor.balance_moved, Cursor.balance_entered]; omega)
      | lineBreak =>
        rw [readOperand_eq]
        exact .refuse passed _ _
          (by simp only [Cursor.balance_moved, Cursor.balance_entered]; omega)
      | name text =>
        have inner := follows_afterName fewer text position passed
          (show depth + 1 + 3 * more.length ≤ s.ceiling by omega)
          (show 4 * more.length + 1 ≤ fuel by omega)
        simp only [Cursor.balance_moved, Cursor.balance_entered] at inner
        exact inner.mono (by omega) (by omega)
      | symbol symbol =>
        have inner := follows_afterSymbol all symbol position passed
          (show depth + 1 + 3 * more.length + 2 ≤ s.ceiling by omega)
          (show 4 * more.length + 4 ≤ fuel by omega)
        simp only [Cursor.balance_moved, Cursor.balance_entered] at inner
        exact inner.mono (by omega) (by omega)

theorem follows_expression (operand : OperandFollows s input) : ExpressionFollows s input := by
  intro c fuel depth least faces bound enough
  cases fuel with
  | zero => omega
  | succ fuel =>
    have entered := faces.entered (show depth ≤ s.ceiling by omega)
    have first := operand _ fuel (depth + 1) entered (by omega) (by omega)
    rw [Cursor.balance_entered] at first
    rw [expression, run_enter_bind, readHeld]
    by_cases strong : postfixPower < least
    · rw [if_pos strong, ← bind_pure (readOperand s.stop input)]
      refine first.bind (by omega) fun {item _ _} _ behind kept => ?_
      obtain ⟨fuel, rfl⟩ : ∃ n, fuel = n + 1 := ⟨fuel - 1, by omega⟩
      rw [run_extend_strong strong fuel depth item behind]
      exact .read behind.looked (by rw [Cursor.balance_looked]; omega)
    · rw [if_neg strong, readExpression_eq]
      refine first.bind (by omega) fun {item rest later} read behind kept => ?_
      have fewer := shorter_of_readOperand read
      have extended := (shorter rest fewer).extension later fuel depth least item
        (Nat.not_lt.mp strong) behind (by omega) (by omega)
      exact extended.mono (by omega) (by omega)

theorem follows_extension : ExtensionFollows s input := by
  intro c fuel depth least first weak faces bound enough
  cases fuel with
  | zero => omega
  | succ fuel =>
    have looked := faces.looked
    rw [extend, run_bind_ok (run_peek faces), readExtension_eq]
    cases input with
    | nil => exact .read looked (by simp)
    | cons t more =>
      rw [List.length_cons] at bound enough
      have all := shorter more (Nat.lt_succ_self _)
      have passed := looked.moved
      obtain ⟨lexeme, position⟩ := t
      cases lexeme with
      | number text => exact .read looked (by simp)
      | name text => exact .read looked (by simp)
      | lineBreak => exact .read looked (by simp)
      | symbol symbol =>
        dsimp only [nextLexeme?_cons]
        cases trailingOperator? symbol with
        | some operator =>
          dsimp only
          rw [if_neg (Nat.not_lt.mpr weak), run_bind_ok (run_advance looked)]
          have extended := all.extension _ fuel depth least (.unary operator first) weak passed
            (by omega) (by omega)
          simp only [Cursor.balance_moved, Cursor.balance_looked] at extended
          exact extended.mono (by omega) (by omega)
        | none =>
          cases binaryOperator? symbol with
          | none => exact .read looked (by simp)
          | some operator =>
            dsimp only
            by_cases weaker : operator.leftPower < least
            · rw [if_pos weaker, if_pos weaker]
              exact .read looked (by simp)
            · rw [if_neg weaker, if_neg weaker, run_bind_ok (run_advance looked)]
              have second := all.expression _ fuel (depth + 1) operator.rightPower passed
                (by omega) (by omega)
              have held : readHeld operator.rightPower s.stop more =
                  readExpression s.stop operator.rightPower more :=
                if_neg (Nat.not_lt.mpr (rightPower_le operator))
              rw [held] at second
              simp only [Cursor.balance_moved, Cursor.balance_looked] at second
              refine second.bind (by omega) fun {item rest later} read behind kept => ?_
              have fewer := Nat.lt_succ_of_lt (shorter_of_readExpression read)
              have extended := (shorter rest fewer).extension later fuel depth least
                (.binary operator first item) weak behind (by omega) (by omega)
              exact extended.mono (by omega) (by omega)

theorem follows_arguments : ArgumentsFollow s input := by
  intro c fuel depth before last faces bound enough
  cases fuel with
  | zero => omega
  | succ fuel =>
    rw [moreArguments, run_bind_ok (run_seesSymbol faces ',')]
    by_cases comma : nextLexeme? input = some (.symbol ',')
    · obtain ⟨t, more, rfl, spelled⟩ := exists_cons_of_next comma
      have passed := faces.looked.moved
      rw [List.length_cons] at bound enough
      rw [comma, if_pos (beq_self_eq_true _), run_bind_ok (run_advance faces.looked),
        map_readOthers spelled]
      have next := (shorter more (Nat.lt_succ_self _)).expression.whole (depth + 1) passed
        (by omega) (show 4 * more.length + 2 ≤ fuel by omega)
      simp only [Cursor.balance_moved, Cursor.balance_looked] at next
      refine next.bind (by omega) fun {item rest later} read behind kept => ?_
      have fewer := Nat.lt_succ_of_lt (shorter_of_readExpression read)
      have others := (shorter rest fewer).arguments later fuel depth (before ++ [last]) item
        behind (by omega) (by omega)
      exact others.mono (by omega) (by omega)
    · rw [if_neg (by simpa using comma), readOthers_last last comma]
      exact .read faces.looked (by simp)

theorem follows_rows (expression : ExpressionFollows s input) : RowsFollow s input := by
  intro c fuel depth rows faces bound enough
  cases fuel with
  | zero => omega
  | succ fuel =>
    rw [matrixRows, readRounds_eq]
    refine (follows_matrixRound expression rows faces bound (by omega)).bind (Int.le_refl _)
      fun {item rest later} read behind kept => ?_
    obtain ⟨closed, rows⟩ := item
    cases closed with
    | true => exact .read behind kept
    | false =>
      have fewer := shorter_of_readRound read
      exact ((shorter rest fewer).rows later fuel depth rows behind (by omega) (by omega)).mono kept
        (by omega)

end Steps

theorem allFollow (s : Scope) (input : List Token) : AllFollow s input := by
  -- Within one length the operand comes first: the other procedures begin with it.
  induction size : input.length using Nat.strongRecOn generalizing input with
  | ind n ih =>
    subst size
    have shorter (rest : List Token) (fewer : rest.length < input.length) : AllFollow s rest :=
      ih rest.length fewer rest rfl
    have expression := follows_expression shorter (follows_operand shorter)
    exact ⟨follows_operand shorter, expression, follows_extension shorter,
      follows_arguments shorter, follows_rows shorter expression⟩

theorem follows_statement (faces : s.Faces c input)
    (bound : depth + 3 * input.length + 2 ≤ s.ceiling) (enough : 4 * input.length + 2 ≤ fuel) :
    s.Follows (c.balance + 4) (c.balance - 6) (run (statement s.tape fuel depth) c)
      (readStatement s.stop input) := by
  have looked := (faces.entered (show depth ≤ s.ceiling by omega)).looked
  obtain ⟨next, ahead, second⟩ := run_peek_next looked
  rw [statement, run_enter_bind, run_bind_ok (run_peek (faces.entered (by omega))),
    run_bind_ok ahead]
  by_cases assigns : ∃ text p q rest, input = ⟨.name text, p⟩ :: ⟨.symbol '=', q⟩ :: rest
  · obtain ⟨text, p, q, rest, rfl⟩ := assigns
    obtain rfl := second _ _ rfl
    have passed := looked.looked.moved.moved
    simp only [List.length_cons] at bound enough
    simp only [nextLexeme?_cons]
    rw [run_bind_ok (run_advance looked.looked), run_bind_ok (run_advance looked.looked.moved),
      readStatement_assignment]
    have assigned := (allFollow s rest).expression.whole (depth + 1) passed (by omega)
      (show 4 * rest.length + 2 ≤ fuel by omega)
    simp only [Cursor.balance_moved, Cursor.balance_looked, Cursor.balance_entered] at assigned
    exact assigned.bind (by omega) fun _ behind kept =>
      .read behind (by omega)
  · have plain text p q rest (same : input = ⟨.name text, p⟩ :: ⟨.symbol '=', q⟩ :: rest) : False :=
      assigns ⟨text, p, q, rest, same⟩
    have whole := (allFollow s input).expression.whole (depth + 1) looked.looked (by omega) enough
    simp only [Cursor.balance_looked, Cursor.balance_entered] at whole
    rw [readStatement_expression s.stop plain]
    split
    · next _ _ text name symbol =>
      obtain ⟨⟨_, p⟩, more, rfl, rfl⟩ := exists_cons_of_next name
      rw [second _ _ rfl] at symbol
      obtain ⟨⟨_, q⟩, rest, rfl, rfl⟩ := exists_cons_of_next symbol
      exact (plain text p q rest rfl).elim
    · exact whole.bind (by omega) fun _ behind kept =>
        .read behind (by omega)

theorem follows_programRound (before : List Statement) (faces : s.Faces c input)
    (bound : depth + 3 * input.length + 3 ≤ s.ceiling) (enough : 4 * input.length + 2 ≤ fuel) :
    s.Follows (c.balance + 1) (c.balance - 7) (run (programRound s.tape fuel depth before) c)
      (readPart before s.stop input) := by
  rw [programRound, run_bind_ok (run_seesSeparator faces), readPart]
  by_cases separates : input.head?.any isSeparator = true
  · rw [if_pos separates, if_pos separates]
    cases input with
    | nil => contradiction
    | cons t more =>
      rw [run_bind_ok (run_advance faces.looked)]
      exact .read faces.looked.moved
        (by simp only [Cursor.balance_moved, Cursor.balance_looked]; omega)
  · rw [if_neg separates, if_neg separates]
    have read := follows_statement faces.looked (show depth + 1 + 3 * input.length + 2 ≤ s.ceiling
      by omega) enough
    rw [Cursor.balance_looked] at read
    refine read.bind (by omega) fun {item _ _} _ behind kept => ?_
    exact (follows_statementEnd (before ++ [item]) behind).mono (by omega) (by omega)

theorem follows_programRounds (before : List Statement) (faces : s.Faces c input)
    (bound : depth + 3 * input.length + 3 ≤ s.ceiling) (enough : 4 * input.length + 3 ≤ fuel) :
    s.Follows (c.balance - 1) (c.balance - 8) (run (programRounds s.tape fuel depth before) c)
      (readParts before s.stop input) := by
  induction fuel generalizing input c before with
  | zero => omega
  | succ fuel ih =>
    rw [programRounds, run_bind_ok (run_seesEnd faces)]
    cases input with
    | nil =>
      rw [readParts, statements_eq]
      simp only [Except.map, List.append_nil]
      exact .read faces.looked (by simp)
    | cons t more =>
      have round := follows_programRound before faces.looked bound
        (show 4 * (t :: more).length + 2 ≤ fuel by omega)
      rw [Cursor.balance_looked] at round
      rw [readParts_eq]
      refine round.bind (by omega) fun {all rest later} read behind kept => ?_
      have fewer := shorter_of_readPart read
      exact (ih all behind (by omega) (by omega)).mono (by omega) (by omega)

/-- The statements of a program, with nothing left behind them. -/
theorem follows_program (faces : s.Faces c input)
    (bound : depth + 3 * input.length + 3 ≤ s.ceiling) (enough : 4 * input.length + 3 ≤ fuel) :
    s.Follows (c.balance - 2) (c.balance - 9) (run (program s.tape fuel depth) c)
      (readAll s.stop input) := by
  have rounds := follows_programRounds [] (faces.entered (show depth ≤ s.ceiling by omega)) bound
    enough
  rw [Cursor.balance_entered, readParts] at rounds
  rw [program, run_enter_bind]
  exact rounds.mono (by omega) (by omega)

/-- An expression with nothing left behind it. -/
theorem follows_singleExpression (faces : s.Faces c input)
    (bound : depth + 3 * input.length + 1 ≤ s.ceiling) (enough : 4 * input.length + 2 ≤ fuel) :
    s.Follows (c.balance + 6) (c.balance - 3) (run (singleExpression s.tape fuel depth) c)
      (readSingle s.stop input) := by
  rw [singleExpression, readSingle]
  refine ((allFollow s input).expression.whole depth faces bound enough).bind (Int.le_refl _)
    fun {item rest later} _ behind kept => ?_
  rw [run_bind_ok (run_peek behind)]
  cases rest with
  | nil => exact .read behind.looked (by rw [Cursor.balance_looked]; omega)
  | cons t more => exact .refuse behind.looked _ _ (by rw [Cursor.balance_looked]; omega)

end MatrixCalculator.Language.Descent
