import MatrixCalculator.Proofs.Language.Descent
import MatrixCalculator.Proofs.Language.PromptExpression

/-! Readers of token lists taken apart into the rounds of loops. A matrix literal is read one
separator or one element after the other, and a program one separator or one statement, each of
which is at least one token. -/
namespace MatrixCalculator.Language

open Descent (postfixPower)

variable {stop : Nat} {input rest : List Token} {rows : Rows}

/-- The reader of an expression. No operator holds an operand as strongly as a sign does. -/
def readHeld (least : Nat) : Reader Expr := fun stop input =>
  if postfixPower < least then readOperand stop input else readExpression stop least input

theorem shorter_of_readHeld {least : Nat} {expr : Expr}
    (done : readHeld least stop input = .ok (expr, rest)) : rest.length < input.length := by
  unfold readHeld at done
  split at done
  · exact shorter_of_readOperand done
  · exact shorter_of_readExpression done

section Calls

def readInner : Reader (List Expr) := fun stop input =>
  if nextLexeme? input = some (.symbol ')') then .ok ([], input) else readElements stop input

theorem readArguments_inner (stop : Nat) (input : List Token) :
    readArguments stop input = (do
      let (arguments, more) ← readInner stop input
      let left ← readSymbol stop ')' more
      return (arguments, left)) := by
  rw [readArguments_eq, readInner]
  cases input with
  | nil =>
    have missing : readElements stop [] = .error ⟨.unexpectedEnd, stop⟩ := by
      rw [readElements_eq, readExpression_eq, readOperand_eq]
      rfl
    rw [nextLexeme?, if_neg (by simp), missing]
    rfl
  | cons t more =>
    dsimp only
    by_cases closes : t.lexeme = .symbol ')'
    · rw [if_pos closes, nextLexeme?_cons, closes, if_pos rfl]
      show _ = readSymbol stop ')' (t :: more) >>= _
      rw [readSymbol_cons closes]
      rfl
    · rw [if_neg closes, if_neg (by simpa using closes)]

def readCall (name : String) : Reader Expr := fun stop input => do
  let rest ← readSymbol stop '(' input
  let (arguments, left) ← readArguments stop rest
  return (.call name arguments, left)

theorem shorter_of_readSymbol {symbol : Char} (done : readSymbol stop symbol input = .ok rest) :
    rest.length < input.length := by
  unfold readSymbol at done
  cases read : expect stop symbol input with
  | error fault => rw [read] at done; contradiction
  | ok p =>
    rw [read] at done
    cases done
    exact p.shorter

theorem shorter_of_readArguments {arguments : List Expr}
    (done : readArguments stop input = .ok (arguments, rest)) : rest.length < input.length :=
  shorter_of_map done

/-- The arguments behind a comma come behind all those before it. -/
theorem map_readOthers {t : Token} (comma : t.lexeme = .symbol ',') (before : List Expr)
    (last : Expr) (stop : Nat) (more : List Token) :
    (readOthers last stop (t :: more)).map (Prod.map (before ++ ·) id) = (do
      let (next, rest) ← readExpression stop 0 more
      (readOthers next stop rest).map (Prod.map (before ++ [last] ++ ·) id)) := by
  rw [readOthers]
  simp only [if_pos comma]
  rw [readElements_eq]
  cases readExpression stop 0 more with
  | error fault => rfl
  | ok p =>
    obtain ⟨next, rest⟩ := p
    show Except.map _ (readOthers next stop rest >>= _) = (readOthers next stop rest).map _
    cases readOthers next stop rest with
    | error fault => rfl
    | ok q =>
      obtain ⟨others, left⟩ := q
      simp [Except.map, bind, Except.bind, pure, Except.pure]

theorem shorter_of_readCall {name : String} {expr : Expr}
    (done : readCall name stop input = .ok (expr, rest)) : rest.length < input.length := by
  obtain ⟨between, opened, done⟩ := exists_of_bind_eq_ok done
  obtain ⟨⟨arguments, left⟩, read, same⟩ := exists_of_bind_eq_ok done
  cases same
  exact Nat.lt_trans (shorter_of_readArguments read) (shorter_of_readSymbol opened)

end Calls

section Matrices

def readMatrix : Reader Expr := fun stop input => do
  let (rows, left) ← readRows stop [] input
  return (.matrix rows, left)

theorem shorter_of_readMatrix {expr : Expr} (done : readMatrix stop input = .ok (expr, rest)) :
    rest.length < input.length := by
  obtain ⟨⟨rows, left⟩, read, same⟩ := exists_of_bind_eq_ok done
  cases same
  exact shorter_of_map read

def readElementEnd (rows : Rows) : Reader (Bool × Rows) := fun _ more =>
  match more with
  | [] => .ok ((false, rows), [])
  | t :: rest =>
    if t.lexeme = .symbol ',' then .ok ((false, rows), rest)
    else if isSeparator t || t.lexeme == .symbol ']' then .ok ((false, rows), t :: rest)
    else .error ⟨.missingSeparator t.lexeme.text, t.position⟩

def readRound (rows : Rows) : Reader (Bool × Rows) := fun stop input =>
  match input with
  | [] => .error ⟨.unclosedBracket, stop⟩
  | t :: rest =>
    if t.lexeme = .symbol ']' then .ok ((true, rows), rest)
    else if isSeparator t then .ok ((false, rows.broken), rest)
    else do
      let (element, more) ← readExpression stop 0 (t :: rest)
      readElementEnd (rows.add element) stop more

def readRounds (rows : Rows) : Reader (List (List Expr)) := fun stop input =>
  (readRows stop rows.begun input).map (Prod.map (rows.complete ++ ·) id)

theorem readRounds_fresh (stop : Nat) (input : List Token) :
    readRounds ⟨[], []⟩ stop input = readRows stop [] input := by
  rw [readRounds]
  cases readRows stop [] input <;> rfl

theorem length_le_of_readElementEnd {q : Bool × Rows}
    (done : readElementEnd rows stop input = .ok (q, rest)) : rest.length ≤ input.length := by
  unfold readElementEnd at done
  cases input with
  | nil => cases done; exact Nat.le_refl _
  | cons t more =>
    dsimp only at done
    split at done
    · cases done; exact Nat.le_succ _
    · split at done
      · cases done; exact Nat.le_refl _
      · contradiction

theorem shorter_of_readRound {q : Bool × Rows}
    (done : readRound rows stop input = .ok (q, rest)) : rest.length < input.length := by
  unfold readRound at done
  cases input with
  | nil => contradiction
  | cons t more =>
    dsimp only at done
    split at done
    · cases done; exact Nat.lt_succ_self _
    · split at done
      · cases done; exact Nat.lt_succ_self _
      · obtain ⟨⟨element, between⟩, read, ended⟩ := exists_of_bind_eq_ok done
        exact Nat.lt_of_le_of_lt (length_le_of_readElementEnd ended)
          (shorter_of_readExpression read)

/-- The rows behind a separator are those of the literal from there on. -/
theorem map_separator (rows : Rows) (answer : Except ParseFault (List (List Expr) × List Token)) :
    (do
      let (later, left) ← answer
      return (if rows.begun.isEmpty then later else rows.begun :: later, left)).map
        (Prod.map (rows.complete ++ ·) id) =
      answer.map (Prod.map (rows.broken.complete ++ ·) id) := by
  cases answer with
  | error fault => rfl
  | ok p =>
    obtain ⟨later, left⟩ := p
    cases empty : rows.begun.isEmpty <;>
      simp [Rows.broken, Rows.all, empty, Except.map, bind, Except.bind, pure, Except.pure]

/-- The rows behind an element are those of the next round. -/
theorem map_readBehind (rows : Rows) (stop : Nat) (more : List Token) :
    (readBehind rows.begun stop more).map (Prod.map (rows.complete ++ ·) id) = (do
      let ((closed, rows), rest) ← readElementEnd rows stop more
      if closed then return (rows.all, rest) else readRounds rows stop rest) := by
  unfold readElementEnd readBehind
  cases more with
  | nil =>
    have unclosed : readRows stop rows.begun [] = .error ⟨.unclosedBracket, stop⟩ := by
      rw [readRows_eq]
    show _ = readRounds rows stop []
    rw [readRounds, unclosed]
  | cons t rest =>
    dsimp only
    split
    · rfl
    · split <;> rfl

theorem readRounds_eq (rows : Rows) (stop : Nat) (input : List Token) :
    readRounds rows stop input = (do
      let ((closed, rows), rest) ← readRound rows stop input
      if closed then return (rows.all, rest) else readRounds rows stop rest) := by
  unfold readRound
  rw [readRounds, readRows_eq]
  cases input with
  | nil => rfl
  | cons t more =>
    dsimp only
    split
    · cases empty : rows.begun.isEmpty <;>
        simp [Rows.all, empty, Except.map, bind, Except.bind, pure, Except.pure]
    · split
      · exact map_separator rows _
      · cases readExpression stop 0 (t :: more) with
        | error fault => rfl
        | ok p => exact map_readBehind (rows.add p.1) stop p.2

end Matrices

section Programs

def readStatementEnd (all : List Statement) : Reader (List Statement) := fun _ more =>
  match more with
  | [] => .ok (all, [])
  | t :: rest =>
    if isSeparator t then .ok (all, t :: rest)
    else .error ⟨.unexpectedToken t.lexeme.text, t.position⟩

def readPart (before : List Statement) : Reader (List Statement) := fun stop input =>
  if input.head?.any isSeparator then .ok (before, input.tail)
  else do
    let (item, more) ← readStatement stop input
    readStatementEnd (before ++ [item]) stop more

def readParts (before : List Statement) : Reader (List Statement) := fun stop input =>
  (statements stop input).map fun later => (before ++ later, [])

def readAll : Reader (List Statement) := fun stop input =>
  (statements stop input).map (·, [])

theorem rest_of_readStatementEnd {before all : List Statement}
    (done : readStatementEnd before stop input = .ok (all, rest)) : rest = input := by
  unfold readStatementEnd at done
  cases input with
  | nil => cases done; rfl
  | cons t more =>
    dsimp only at done
    split at done
    · cases done; rfl
    · contradiction

theorem shorter_of_readPart {before all : List Statement}
    (done : readPart before stop input = .ok (all, rest)) : rest.length < input.length := by
  unfold readPart at done
  split at done
  · next separates =>
    cases input with
    | nil => contradiction
    | cons t more => cases done; exact Nat.lt_succ_self _
  · obtain ⟨⟨item, between⟩, read, ended⟩ := exists_of_bind_eq_ok done
    rw [rest_of_readStatementEnd ended]
    exact shorter_of_readStatement read

/-- A separator behind a statement is read in the next round. -/
theorem map_readStatementEnd (before : List Statement) (item : Statement) (stop : Nat)
    (more : List Token) :
    (match more with
      | [] => .ok [item]
      | t :: rest =>
        if isSeparator t then do
          let later ← statements stop rest
          return item :: later
        else .error ⟨.unexpectedToken t.lexeme.text, t.position⟩ :
      Except ParseFault (List Statement)).map (fun later => (before ++ later, [])) = (do
      let (before, rest) ← readStatementEnd (before ++ [item]) stop more
      readParts before stop rest) := by
  unfold readStatementEnd
  cases more with
  | nil =>
    show _ = readParts (before ++ [item]) stop []
    rw [readParts, statements_eq]
    simp [Except.map]
  | cons t rest =>
    dsimp only
    split
    · next separates =>
      show _ = readParts (before ++ [item]) stop (t :: rest)
      rw [readParts, statements_separator separates]
      cases statements stop rest <;> simp [Except.map, bind, Except.bind, pure, Except.pure]
    · rfl

theorem readParts_eq (before : List Statement) (stop : Nat) (t : Token) (more : List Token) :
    readParts before stop (t :: more) = (do
      let (before, rest) ← readPart before stop (t :: more)
      readParts before stop rest) := by
  unfold readPart
  rw [readParts, statements_eq, List.head?_cons, Option.any_some]
  by_cases separates : isSeparator t = true
  · rw [if_pos separates]
    simp only [if_pos separates]
    rfl
  · rw [if_neg separates]
    simp only [if_neg separates]
    cases readStatement stop (t :: more) with
    | error fault => rfl
    | ok p => exact map_readStatementEnd before p.1 stop p.2

def readSingle : Reader Expr := fun stop input => do
  let (expr, more) ← readExpression stop 0 input
  match more with
  | [] => return (expr, [])
  | t :: _ => .error ⟨.unexpectedToken t.lexeme.text, t.position⟩

end Programs

end MatrixCalculator.Language
