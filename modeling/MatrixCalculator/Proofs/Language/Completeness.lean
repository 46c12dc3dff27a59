import MatrixCalculator.Proofs.Language.Spelling

/-! Whatever the grammar derives is read, and read as the tree of the derivation. An expression
is read up to an operator that its place in the grammar leaves to others. -/
namespace MatrixCalculator.Language

variable {stop least bound : Nat} {first second item : Expr} {t : Token}
  {input more taken rest : List Token}

/-- Lexemes that are read as a tree, up to an operator that may hold what it follows as strongly
as `strength` but less than `bound`. -/
def ReadsUpTo (stop strength bound : Nat) (lexemes : List Lexeme) (tree : Expr) : Prop :=
  ∀ taken rest least, spelling taken = lexemes → least ≤ strength → Stops bound rest →
    NotCalled rest → readExpression stop least (taken ++ rest) = readExtension stop least tree rest

def ReadsMarked (stop : Nat) (lexemes : List Lexeme) (tree : Expr) : Prop :=
  ∀ taken rest least, spelling taken = lexemes → NotCalled rest →
    readExpression stop least (taken ++ rest) = readExtension stop least tree rest

def ReadsOperand (stop : Nat) (lexemes : List Lexeme) (tree : Expr) : Prop :=
  ∀ taken rest, spelling taken = lexemes → NotCalled rest →
    readOperand stop (taken ++ rest) = .ok (tree, rest)

/-- Lexemes that are read as elements, between the brackets of a call and in a row. -/
structure ReadsElements (stop : Nat) (lexemes : List Lexeme) (trees : List Expr) : Prop where
  alone : ∀ taken rest, spelling taken = lexemes → Delimited rest →
    nextLexeme? rest ≠ some (.symbol ',') → readElements stop (taken ++ rest) = .ok (trees, rest)
  row : ∀ taken current rest, spelling taken = lexemes → RowEnds rest →
    readRows stop current (taken ++ rest) = readRows stop (current ++ trees) rest
  comma : ∀ taken current t rest, spelling taken = lexemes → t.lexeme = .symbol ',' →
    readRows stop current (taken ++ t :: rest) = readRows stop (current ++ trees) rest

section Levels

variable {strength : Nat} {lexemes others : List Lexeme} {tree other : Expr}
  {trees : List Expr} {operator : BinaryOperator}

theorem ReadsUpTo.mono (reads : ReadsUpTo stop strength bound lexemes tree) {weaker lower : Nat}
    (le : weaker ≤ strength) (lower_le : lower ≤ bound) :
    ReadsUpTo stop weaker lower lexemes tree :=
  fun taken rest least spelled held stops =>
    reads taken rest least spelled (Nat.le_trans held le) (stops.mono lower_le)

theorem ReadsMarked.upTo (reads : ReadsMarked stop lexemes tree) :
    ReadsUpTo stop strength bound lexemes tree :=
  fun taken rest least spelled _ _ free => reads taken rest least spelled free

theorem ReadsOperand.marked (reads : ReadsOperand stop lexemes tree) :
    ReadsMarked stop lexemes tree := by
  intro taken rest least spelled free
  rw [readExpression_eq, reads taken rest spelled free]
  rfl

/-- An operator takes what has been read on its left, if it may follow there, and what is read on
its right with its own strength. -/
theorem ReadsUpTo.binary {power limit lower : Nat}
    (left : ReadsUpTo stop strength bound lexemes tree)
    (right : ReadsUpTo stop power limit others other) (operator : BinaryOperator)
    (held : strength ≤ operator.leftPower) (follows : operator.leftPower < bound)
    (power_le : operator.rightPower ≤ power) (lower_le : lower ≤ operator.rightPower)
    (limit_le : lower ≤ limit) :
    ReadsUpTo stop strength lower (lexemes ++ .symbol operator.symbol :: others)
      (.binary operator tree other) := by
  intro taken rest least spelled le stops free
  obtain ⟨front, back, rfl, first, spelled⟩ := spelling_eq_append spelled
  obtain ⟨t, behind, rfl, symbol, second⟩ := spelling_eq_cons spelled
  rw [List.append_assoc, List.cons_append,
    left front _ least first le (stops_cons_binary symbol follows) (notCalled_cons_binary symbol)]
  exact readExtension_binary symbol (Nat.le_trans le held)
    (right behind rest _ second power_le (stops.mono limit_le) free) (stops.mono lower_le)

theorem ReadsMarked.mark (reads : ReadsMarked stop lexemes tree) {operator : UnaryOperator}
    (trailing : operator ∈ [.factorial, .transpose]) :
    ReadsMarked stop (lexemes ++ [.symbol operator.symbol]) (.unary operator tree) := by
  intro taken rest least spelled free
  obtain ⟨front, t, rfl, first, symbol⟩ := spelling_eq_concat spelled
  rw [List.append_assoc, List.cons_append, List.nil_append,
    reads front _ least first (notCalled_cons_trailing symbol)]
  exact readExtension_trailing symbol trailing

theorem ReadsOperand.sign (reads : ReadsOperand stop lexemes tree) {operator : UnaryOperator}
    (leading : operator ∈ [.plus, .minus]) :
    ReadsOperand stop (.symbol operator.symbol :: lexemes) (.unary operator tree) := by
  intro taken rest spelled free
  obtain ⟨t, behind, rfl, symbol, spelled⟩ := spelling_eq_cons spelled
  rw [List.cons_append, readOperand_eq]
  simp only [symbol, leadingOperator?_eq_some_iff.mpr ⟨rfl, leading⟩,
    reads behind rest spelled free]
  rfl

theorem ReadsUpTo.alone (reads : ReadsUpTo stop strength bound lexemes tree)
    (spelled : spelling taken = lexemes) (delimited : Delimited rest) :
    readExpression stop 0 (taken ++ rest) = .ok (tree, rest) := by
  rw [reads taken rest 0 spelled (Nat.zero_le _) delimited.stops delimited.notCalled]
  exact readExtension_stops delimited.stops

theorem readSymbol_cons {symbol : Char} (spelled : t.lexeme = .symbol symbol) :
    readSymbol stop symbol (t :: rest) = .ok rest := by
  rw [readSymbol_eq]
  exact if_pos spelled

theorem ReadsUpTo.parentheses (reads : ReadsUpTo stop strength bound lexemes tree) :
    ReadsOperand stop (.symbol '(' :: (lexemes ++ [.symbol ')'])) tree := by
  intro taken rest spelled free
  obtain ⟨t, behind, rfl, opening, spelled⟩ := spelling_eq_cons spelled
  obtain ⟨inner, u, rfl, enclosed, closing⟩ := spelling_eq_concat spelled
  have read := reads.alone enclosed (delimited_cons_symbol rest closing (by decide))
  rw [List.cons_append, List.append_assoc, List.cons_append, List.nil_append, readOperand_eq]
  simp only [opening, leadingOperator?, if_true, read]
  simp only [bind, Except.bind, readSymbol_cons closing]
  rfl

theorem readsOperand_number (text : List Char) :
    ReadsOperand stop [.number text] (.number (Decimal.readDouble text)) := by
  intro taken rest spelled free
  obtain ⟨t, rfl, number⟩ := spelling_eq_singleton spelled
  rw [List.cons_append, readOperand_eq]
  simp only [number]
  rfl

theorem readsOperand_name (text : List Char) :
    ReadsOperand stop [.name text] (.variable (String.ofList text)) := by
  intro taken rest spelled free
  obtain ⟨t, rfl, name⟩ := spelling_eq_singleton spelled
  rw [List.cons_append, readOperand_eq]
  simp only [name, List.nil_append]
  cases rest with
  | nil => rfl
  | cons u rest =>
    have other : u.lexeme ≠ .symbol '(' := fun same => free (congrArg some same)
    simp only [if_neg other]

theorem readOperand_called {function : List Char} {u : Token} {left : List Token}
    {arguments : List Expr} (name : t.lexeme = .name function) (opening : u.lexeme = .symbol '(')
    (read : readArguments stop more = .ok (arguments, left)) :
    readOperand stop (t :: u :: more) =
      .ok (.call (String.ofList function) arguments, left) := by
  rw [readOperand_eq]
  simp only [name, if_pos opening, read]
  rfl

theorem readsOperand_call (function : List Char) :
    ReadsOperand stop [.name function, .symbol '(', .symbol ')']
      (.call (String.ofList function) []) := by
  intro taken rest spelled free
  obtain ⟨t, behind, rfl, name, spelled⟩ := spelling_eq_cons spelled
  obtain ⟨u, behind, rfl, opening, spelled⟩ := spelling_eq_cons spelled
  obtain ⟨v, rfl, closing⟩ := spelling_eq_singleton spelled
  refine readOperand_called name opening ?_
  rw [readArguments_eq]
  exact if_pos closing

theorem ReadsElements.call (reads : ReadsElements stop lexemes trees) (function : List Char)
    (opens : ∃ first more, lexemes = first :: more ∧ first.opens = true) :
    ReadsOperand stop (.name function :: .symbol '(' :: (lexemes ++ [.symbol ')']))
      (.call (String.ofList function) trees) := by
  intro taken rest spelled free
  obtain ⟨t, behind, rfl, name, spelled⟩ := spelling_eq_cons spelled
  obtain ⟨u, behind, rfl, opening, spelled⟩ := spelling_eq_cons spelled
  obtain ⟨inner, v, rfl, enclosed, closing⟩ := spelling_eq_concat spelled
  obtain ⟨lexeme, lexemes, rfl, opens⟩ := opens
  have read := reads.alone inner (v :: rest) enclosed (delimited_cons_symbol rest closing (by decide))
    (by rw [nextLexeme?_cons, closing]; decide)
  obtain ⟨w, inner, rfl, begins, _⟩ := spelling_eq_cons enclosed
  have unclosed : w.lexeme ≠ .symbol ')' := by
    intro same
    rw [← begins, same] at opens
    contradiction
  simp only [List.cons_append, List.append_assoc, List.nil_append] at read ⊢
  refine readOperand_called name opening ?_
  rw [readArguments_eq]
  simp only [if_neg unclosed, read]
  simp only [bind, Except.bind, readSymbol_cons closing]
  rfl

theorem readElements_last (read : readExpression stop 0 input = .ok (item, rest))
    (ended : nextLexeme? rest ≠ some (.symbol ',')) : readElements stop input = .ok ([item], rest) := by
  rw [readElements_eq, read]
  cases rest with
  | nil => rfl
  | cons t more => exact if_neg fun same => ended (congrArg some same)

theorem readElements_comma (read : readExpression stop 0 input = .ok (item, t :: more))
    (comma : t.lexeme = .symbol ',') (later : readElements stop more = .ok (trees, rest)) :
    readElements stop input = .ok (item :: trees, rest) := by
  rw [readElements_eq, read]
  simp only [bind, Except.bind, if_pos comma, later]
  rfl

theorem readRows_element {current : List Expr} (opens : t.lexeme.opens = true)
    (read : readExpression stop 0 (t :: more) = .ok (item, rest)) (ends : RowEnds rest) :
    readRows stop current (t :: more) = readRows stop (current ++ [item]) rest := by
  obtain ⟨open_separator, open_bracket⟩ := not_rowEnds_of_opens opens
  obtain ⟨u, others, rfl, ended⟩ := ends
  have plain : u.lexeme ≠ .symbol ',' := by
    intro comma
    rw [isSeparator, comma] at ended
    revert ended
    decide
  have closed : (isSeparator u || u.lexeme == .symbol ']') = true := by
    simpa only [Bool.or_eq_true, beq_iff_eq] using ended
  rw [readRows_eq]
  simp only [if_neg open_bracket, open_separator, read]
  simp only [bind, Except.bind, if_neg plain, if_pos closed]
  rfl

theorem readRows_element_comma {current : List Expr} {u : Token} (opens : t.lexeme.opens = true)
    (read : readExpression stop 0 (t :: more) = .ok (item, u :: rest))
    (comma : u.lexeme = .symbol ',') :
    readRows stop current (t :: more) = readRows stop (current ++ [item]) rest := by
  obtain ⟨open_separator, open_bracket⟩ := not_rowEnds_of_opens opens
  rw [readRows_eq]
  simp only [if_neg open_bracket, open_separator, read]
  simp only [bind, Except.bind, if_pos comma]
  rfl

theorem ReadsUpTo.element (reads : ReadsUpTo stop strength bound lexemes tree)
    (opens : ∃ first more, lexemes = first :: more ∧ first.opens = true) :
    ReadsElements stop lexemes [tree] := by
  obtain ⟨lexeme, lexemes, rfl, opens⟩ := opens
  refine ⟨fun taken rest spelled delimited ended => ?_, fun taken current rest spelled ends => ?_,
    fun taken current u rest spelled comma => ?_⟩
  · exact readElements_last (reads.alone spelled delimited) ended
  · have read := reads.alone spelled ends.delimited
    obtain ⟨t, more, rfl, rfl, _⟩ := spelling_eq_cons spelled
    exact readRows_element opens read ends
  · have read := reads.alone spelled (delimited_cons_symbol rest comma (by decide))
    obtain ⟨t, more, rfl, rfl, _⟩ := spelling_eq_cons spelled
    exact readRows_element_comma opens read comma

theorem ReadsElements.comma_cons (reads : ReadsElements stop others trees)
    (first : ReadsUpTo stop strength bound lexemes tree)
    (opens : ∃ first more, lexemes = first :: more ∧ first.opens = true) :
    ReadsElements stop (lexemes ++ .symbol ',' :: others) (tree :: trees) := by
  have element := first.element opens
  refine ⟨fun taken rest spelled delimited ended => ?_, fun taken current rest spelled ends => ?_,
    fun taken current u rest spelled comma => ?_⟩
  all_goals
    obtain ⟨front, back, rfl, front_spelled, spelled⟩ := spelling_eq_append spelled
    obtain ⟨t, behind, rfl, symbol, spelled⟩ := spelling_eq_cons spelled
    rw [List.append_assoc, List.cons_append]
  · have read := first.alone front_spelled
      (delimited_cons_symbol (behind ++ rest) symbol (by decide))
    exact readElements_comma read symbol (reads.alone behind rest spelled delimited ended)
  · rw [element.comma front current t _ front_spelled symbol,
      reads.row behind _ rest spelled ends, List.append_assoc]
    rfl
  · rw [element.comma front current t _ front_spelled symbol,
      reads.comma behind _ u rest spelled comma, List.append_assoc]
    rfl

end Levels

section Rows

variable {lexemes others : List Lexeme} {row : List Expr} {rows : List (List Expr)}

def ReadsRow (stop : Nat) (lexemes : List Lexeme) (row : List Expr) : Prop :=
  ∀ taken current rest, spelling taken = lexemes → RowEnds rest →
    readRows stop current (taken ++ rest) = readRows stop (current ++ row) rest

def ReadsRows (stop : Nat) (lexemes : List Lexeme) (rows : List (List Expr)) : Prop :=
  ∀ taken t rest, spelling taken = lexemes → t.lexeme = .symbol ']' →
    readRows stop [] (taken ++ t :: rest) = .ok (rows, rest)

/-- Lexemes that end a begun row and are read as the rows after it. -/
structure ReadsRowsAfter (stop : Nat) (lexemes : List Lexeme) (rows : List (List Expr)) : Prop where
  ends : ∀ taken t rest, spelling taken = lexemes → t.lexeme = .symbol ']' →
    RowEnds (taken ++ t :: rest)
  read : ∀ taken current t rest, spelling taken = lexemes → current ≠ [] →
    t.lexeme = .symbol ']' → readRows stop current (taken ++ t :: rest) = .ok (current :: rows, rest)

theorem ReadsElements.rowOf (reads : ReadsElements stop lexemes row) (trailing : Bool) :
    ReadsRow stop (lexemes ++ if trailing then [.symbol ','] else []) row := by
  intro taken current rest spelled ends
  cases trailing with
  | false => exact reads.row taken current rest (by simpa using spelled) ends
  | true =>
    obtain ⟨left, t, rfl, spelled, comma⟩ := spelling_eq_concat spelled
    rw [List.append_assoc]
    exact reads.comma left current t rest spelled comma

theorem readRows_separator {current : List Expr} (separates : isSeparator t = true)
    (read : readRows stop [] more = .ok (rows, rest)) :
    readRows stop current (t :: more) =
      .ok (if current.isEmpty then rows else current :: rows, rest) := by
  have inside : t.lexeme ≠ .symbol ']' := by
    intro closes
    rw [isSeparator, closes] at separates
    contradiction
  rw [readRows_eq]
  simp only [if_neg inside, if_pos separates, read]
  rfl

theorem readRows_closing {current : List Expr} (closes : t.lexeme = .symbol ']') :
    readRows stop current (t :: rest) =
      .ok (if current.isEmpty then [] else [current], rest) := by
  rw [readRows_eq]
  exact if_pos closes

theorem ReadsRows.separated (reads : ReadsRows stop lexemes rows) (separators : List Separator) :
    ReadsRows stop (separators.map Separator.lexeme ++ lexemes) rows := by
  induction separators with
  | nil => exact reads
  | cons separator separators ih =>
    intro taken t rest spelled closes
    obtain ⟨u, more, rfl, separates, spelled⟩ := spelling_eq_cons spelled
    exact readRows_separator (isSeparator_of_lexeme separates) (ih more t rest spelled closes)

theorem readsRows_nil : ReadsRows stop [] [] := by
  intro taken t rest spelled closes
  obtain rfl : taken = [] := List.map_eq_nil_iff.mp spelled
  exact readRows_closing closes

theorem readsRows_blank (separators : List Separator) :
    ReadsRows stop (separators.map Separator.lexeme) [] := by
  simpa using readsRows_nil.separated separators

theorem ReadsRow.before (reads : ReadsRow stop lexemes row) (filled : row ≠ [])
    (later : ReadsRowsAfter stop others rows) :
    ReadsRows stop (lexemes ++ others) (row :: rows) := by
  intro taken t rest spelled closes
  obtain ⟨front, back, rfl, first, spelled⟩ := spelling_eq_append spelled
  rw [List.append_assoc, reads front [] _ first (later.ends back t rest spelled closes)]
  exact later.read back row t rest spelled filled closes

theorem ReadsRows.after (reads : ReadsRows stop lexemes rows) (separator : Separator) :
    ReadsRowsAfter stop (separator.lexeme :: lexemes) rows := by
  constructor
  · intro taken t rest spelled closes
    obtain ⟨u, more, rfl, separates, _⟩ := spelling_eq_cons spelled
    exact ⟨u, _, rfl, .inl (isSeparator_of_lexeme separates)⟩
  · intro taken current t rest spelled begun closes
    obtain ⟨u, more, rfl, separates, spelled⟩ := spelling_eq_cons spelled
    have read := reads more t rest spelled closes
    rw [List.cons_append, readRows_separator (isSeparator_of_lexeme separates) read,
      if_neg (by simpa using begun)]

theorem readsRowsAfter_finish (trailing : List Separator) :
    ReadsRowsAfter stop (trailing.map Separator.lexeme) [] := by
  cases trailing with
  | cons separator separators => exact (readsRows_blank separators).after separator
  | nil =>
    constructor
    · intro taken t rest spelled closes
      obtain rfl : taken = [] := List.map_eq_nil_iff.mp spelled
      exact rowEnds_of_closing closes
    · intro taken current t rest spelled begun closes
      obtain rfl : taken = [] := List.map_eq_nil_iff.mp spelled
      rw [List.nil_append, readRows_closing closes, if_neg (by simpa using begun)]

theorem ReadsRows.matrix (reads : ReadsRows stop lexemes rows) :
    ReadsOperand stop (.symbol '[' :: (lexemes ++ [.symbol ']'])) (.matrix rows) := by
  intro taken rest spelled free
  obtain ⟨t, behind, rfl, opening, spelled⟩ := spelling_eq_cons spelled
  obtain ⟨inner, u, rfl, enclosed, closing⟩ := spelling_eq_concat spelled
  have read := reads inner u rest enclosed closing
  rw [List.cons_append, List.append_assoc, List.cons_append, List.nil_append, readOperand_eq]
  simp only [opening, leadingOperator?, read]
  rfl

end Rows

section Statements

variable {lexemes others : List Lexeme} {tree : Expr} {s : Statement} {ss : List Statement}

def ReadsStatement (stop : Nat) (lexemes : List Lexeme) (s : Statement) : Prop :=
  ∀ taken rest, spelling taken = lexemes → StatementEnds rest →
    readStatement stop (taken ++ rest) = .ok (s, rest)

def ReadsStatements (stop : Nat) (lexemes : List Lexeme) (ss : List Statement) : Prop :=
  ∀ taken, spelling taken = lexemes → statements stop taken = .ok ss

/-- Lexemes that end a statement and are read as the statements after it. -/
def ReadsStatementsAfter (stop : Nat) (lexemes : List Lexeme) (ss : List Statement) : Prop :=
  ∀ taken, spelling taken = lexemes → taken = [] ∧ ss = [] ∨
    ∃ t more, taken = t :: more ∧ isSeparator t = true ∧ statements stop more = .ok ss

theorem readExpression_name_equals (text : List Char) (p q : Nat) :
    readExpression stop 0 (⟨.name text, p⟩ :: ⟨.symbol '=', q⟩ :: rest) =
      .ok (.variable (String.ofList text), ⟨.symbol '=', q⟩ :: rest) := by
  have operand : readOperand stop (⟨.name text, p⟩ :: ⟨.symbol '=', q⟩ :: rest) =
      .ok (.variable (String.ofList text), ⟨.symbol '=', q⟩ :: rest) := by
    rw [readOperand_eq]
    exact if_neg (by simp)
  rw [readExpression_eq, operand]
  exact readExtension_stops (delimited_cons_symbol _ rfl (by decide)).stops

/-- No expression reaches over an equals sign, so nothing that is spelled as one is taken for an
assignment. -/
theorem ReadsUpTo.statement {strength : Nat} (reads : ReadsUpTo stop strength bound lexemes tree) :
    ReadsStatement stop lexemes ⟨tree, none⟩ := by
  intro taken rest spelled ends
  have read := reads.alone spelled ends.delimited
  rw [readStatement_expression, read]
  · rfl
  · intro text p q behind same
    rw [same, readExpression_name_equals] at read
    have left : ⟨.symbol '=', q⟩ :: behind = rest := (Prod.mk.inj (Except.ok.inj read)).2
    have separates := ends _ _ left.symm
    contradiction

theorem ReadsUpTo.assignment {strength : Nat} (reads : ReadsUpTo stop strength bound lexemes tree)
    (target : List Char) :
    ReadsStatement stop (.name target :: .symbol '=' :: lexemes)
      ⟨tree, some (String.ofList target)⟩ := by
  intro taken rest spelled ends
  obtain ⟨⟨_, p⟩, behind, rfl, rfl, equals⟩ := spelling_eq_cons spelled
  obtain ⟨⟨_, q⟩, behind, rfl, rfl, value⟩ := spelling_eq_cons equals
  rw [List.cons_append, List.cons_append, readStatement_assignment,
    reads.alone value ends.delimited]
  rfl

theorem statements_separator (separates : isSeparator t = true) :
    statements stop (t :: rest) = statements stop rest := by
  rw [statements_eq]
  exact if_pos separates

theorem ReadsStatements.separated (reads : ReadsStatements stop lexemes ss)
    (separators : List Separator) :
    ReadsStatements stop (separators.map Separator.lexeme ++ lexemes) ss := by
  induction separators with
  | nil => exact reads
  | cons separator separators ih =>
    intro taken spelled
    obtain ⟨u, more, rfl, separates, spelled⟩ := spelling_eq_cons spelled
    rw [statements_separator (isSeparator_of_lexeme separates)]
    exact ih more spelled

theorem readsStatements_blank (separators : List Separator) :
    ReadsStatements stop (separators.map Separator.lexeme) [] := by
  have empty : ReadsStatements stop [] [] := by
    intro taken spelled
    obtain rfl : taken = [] := List.map_eq_nil_iff.mp spelled
    rw [statements_eq]
  simpa using empty.separated separators

theorem ReadsStatement.before (reads : ReadsStatement stop lexemes s)
    (opens : ∃ first more, lexemes = first :: more ∧ first.opens = true)
    (later : ReadsStatementsAfter stop others ss) :
    ReadsStatements stop (lexemes ++ others) (s :: ss) := by
  intro taken spelled
  obtain ⟨front, back, rfl, first, spelled⟩ := spelling_eq_append spelled
  have later := later back spelled
  have ends : StatementEnds back := by
    intro t more same
    obtain ⟨rfl, _⟩ | ⟨u, behind, rfl, separates, _⟩ := later
    · contradiction
    · cases same
      exact separates
  have read := reads front back first ends
  obtain ⟨lexeme, lexemes, rfl, opens⟩ := opens
  obtain ⟨u, front, rfl, rfl, _⟩ := spelling_eq_cons first
  rw [List.cons_append, statements_eq]
  simp only [(not_rowEnds_of_opens opens).1]
  rw [List.cons_append] at read
  simp only [read, bind, Except.bind]
  obtain ⟨rfl, rfl⟩ | ⟨v, behind, rfl, separates, later⟩ := later
  · rfl
  · simp only [if_pos separates, later]
    rfl

theorem ReadsStatements.after (reads : ReadsStatements stop lexemes ss) (separator : Separator) :
    ReadsStatementsAfter stop (separator.lexeme :: lexemes) ss := by
  intro taken spelled
  obtain ⟨u, more, rfl, separates, spelled⟩ := spelling_eq_cons spelled
  exact .inr ⟨u, more, rfl, isSeparator_of_lexeme separates, reads more spelled⟩

theorem readsStatementsAfter_finish (trailing : List Separator) :
    ReadsStatementsAfter stop (trailing.map Separator.lexeme) [] := by
  cases trailing with
  | cons separator separators => exact (readsStatements_blank separators).after separator
  | nil => exact fun taken spelled => .inl ⟨List.map_eq_nil_iff.mp spelled, rfl⟩

end Statements

def Nonterminal.Reads (stop : Nat) : (N : Nonterminal) → List Lexeme → N.Tree → Prop
  | .sum => ReadsUpTo stop 10 11
  | .product => ReadsUpTo stop 20 21
  | .power => ReadsUpTo stop 30 30
  | .marked => ReadsMarked stop
  | .signed | .atom => ReadsOperand stop
  | .elements => ReadsElements stop
  | .piece .row => ReadsRow stop
  | .block .row => ReadsRows stop
  | .tail .row => ReadsRowsAfter stop
  | .piece .statement => ReadsStatement stop
  | .block .statement => ReadsStatements stop
  | .tail .statement => ReadsStatementsAfter stop

theorem Derivation.reads (stop : Nat) {N : Nonterminal} (d : Derivation N) :
    N.Reads stop d.yield d.tree := by
  induction d with
  | term only ih => exact ReadsUpTo.mono ih (by decide) (by decide)
  | add left operator additive right left_ih right_ih =>
    obtain ⟨leftPower, rightPower⟩ := operator.powers_of_additive additive
    exact ReadsUpTo.binary left_ih right_ih operator (by omega) (by omega) (by omega) (by omega)
      (by omega)
  | factor only ih => exact ReadsUpTo.mono ih (by decide) (by decide)
  | multiply left operator multiplicative right left_ih right_ih =>
    obtain ⟨leftPower, rightPower⟩ := operator.powers_of_multiplicative multiplicative
    exact ReadsUpTo.binary left_ih right_ih operator (by omega) (by omega) (by omega) (by omega)
      (by omega)
  | base only ih => exact ReadsMarked.upTo ih
  | raise operand exponent left_ih right_ih =>
    have base : ReadsUpTo stop 30 31 operand.yield operand.tree := ReadsMarked.upTo left_ih
    exact ReadsUpTo.binary base right_ih .power
      (by decide) (by decide) (by decide) (by decide) (by decide)
  | bare only ih => exact ReadsOperand.marked ih
  | mark operand operator trailing ih => exact ReadsMarked.mark ih trailing
  | unsigned only ih => exact ih
  | sign operator leading operand ih => exact ReadsOperand.sign ih leading
  | number text => exact readsOperand_number text
  | name text => exact readsOperand_name text
  | call function => exact readsOperand_call function
  | callWith function arguments ih =>
    exact ReadsElements.call ih function (arguments.yield_opens trivial)
  | parentheses inner ih => exact ReadsUpTo.parentheses ih
  | matrix rows ih => exact ReadsRows.matrix ih
  | element only ih => exact ReadsUpTo.element ih (only.yield_opens trivial)
  | comma first others first_ih ih =>
    exact ReadsElements.comma_cons ih first_ih (first.yield_opens trivial)
  | row elements trailing ih => exact ReadsElements.rowOf ih trailing
  | assignment target value ih => exact ReadsUpTo.assignment ih target
  | expression value ih => exact ReadsUpTo.statement ih
  | @blank p separators =>
    cases p with
    | row => exact readsRows_blank separators
    | statement => exact readsStatements_blank separators
  | @filled p leading first others first_ih ih =>
    cases p with
    | row => exact (ReadsRow.before first_ih first.rowsFilled.1 ih).separated leading
    | statement =>
      exact (ReadsStatement.before first_ih (first.yield_opens trivial) ih).separated leading
  | @finish p trailing =>
    cases p with
    | row => exact readsRowsAfter_finish trailing
    | statement => exact readsStatementsAfter_finish trailing
  | @next p separator separators first others first_ih ih =>
    cases p with
    | row =>
      exact ((ReadsRow.before first_ih first.rowsFilled.1 ih).separated separators).after separator
    | statement =>
      exact ((ReadsStatement.before first_ih (first.yield_opens trivial) ih).separated
        separators).after separator

end MatrixCalculator.Language
