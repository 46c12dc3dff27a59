import MatrixCalculator.Language.Parser

/-! Parsing as reading: the same parsers without the proof that tokens have been used up, each
with the equation that it satisfies. -/
namespace MatrixCalculator.Language

variable {stop least bound : Nat} {first second item : Expr} {t : Token}
  {input more rest : List Token}

theorem exists_of_bind_eq_ok {ε β γ : Type} {head : Except ε β} {body : β → Except ε γ} {c : γ}
    (done : head >>= body = .ok c) : ∃ b, head = .ok b ∧ body b = .ok c := by
  cases head with
  | error fault => contradiction
  | ok b => exact ⟨b, rfl, done⟩

def readExpression (stop least : Nat) (input : List Token) :
    Except ParseFault (Expr × List Token) :=
  (expression stop least input).map fun p => (p.item, p.rest)

def readExtension (stop least : Nat) (first : Expr) (input : List Token) :
    Except ParseFault (Expr × List Token) :=
  (extend stop least first input).map fun p => (p.item, p.rest)

def readOperand (stop : Nat) (input : List Token) : Except ParseFault (Expr × List Token) :=
  (operand stop input).map fun p => (p.item, p.rest)

def readArguments (stop : Nat) (input : List Token) :
    Except ParseFault (List Expr × List Token) :=
  (callArguments stop input).map fun p => (p.item, p.rest)

def readElements (stop : Nat) (input : List Token) :
    Except ParseFault (List Expr × List Token) :=
  (argumentList stop input).map fun p => (p.item, p.rest)

def readRows (stop : Nat) (current : List Expr) (input : List Token) :
    Except ParseFault (List (List Expr) × List Token) :=
  (matrixRows stop current input).map fun p => (p.item, p.rest)

def readStatement (stop : Nat) (input : List Token) :
    Except ParseFault (Statement × List Token) :=
  (statement stop input).map fun p => (p.item, p.rest)

def readSymbol (stop : Nat) (symbol : Char) (input : List Token) :
    Except ParseFault (List Token) :=
  (expect stop symbol input).map (·.rest)

theorem shorter_of_map {β : Type} {parsed : Except ParseFault (Parsed input β)} {item : β}
    (done : parsed.map (fun p => (p.item, p.rest)) = .ok (item, rest)) :
    rest.length < input.length := by
  cases parsed with
  | error fault => contradiction
  | ok p =>
    cases done
    exact p.shorter

theorem shorter_of_readExpression (done : readExpression stop least input = .ok (item, rest)) :
    rest.length < input.length :=
  shorter_of_map done

theorem shorter_of_readOperand (done : readOperand stop input = .ok (item, rest)) :
    rest.length < input.length :=
  shorter_of_map done

theorem shorter_of_readStatement {s : Statement}
    (done : readStatement stop input = .ok (s, rest)) : rest.length < input.length :=
  shorter_of_map done

theorem readSymbol_eq (stop : Nat) (symbol : Char) (input : List Token) :
    readSymbol stop symbol input = match input with
      | [] => .error ⟨.missing symbol none, stop⟩
      | t :: rest =>
        if t.lexeme = .symbol symbol then .ok rest
        else .error ⟨.missing symbol (some t.lexeme.text), t.position⟩ := by
  unfold readSymbol expect
  cases input with
  | nil => rfl
  | cons t rest =>
    dsimp only
    split <;> rfl

theorem readExpression_eq (stop least : Nat) (input : List Token) :
    readExpression stop least input = (do
      let (first, rest) ← readOperand stop input
      readExtension stop least first rest) := by
  unfold readExpression readOperand readExtension
  rw [expression]
  cases operand stop input with
  | error fault => rfl
  | ok p =>
    obtain ⟨first, rest, fewer⟩ := p
    change Except.map _ (extend stop least first rest >>= _) =
      (extend stop least first rest).map _
    cases extend stop least first rest <;> rfl

theorem readExtension_eq (stop least : Nat) (first : Expr) (input : List Token) :
    readExtension stop least first input = match input with
      | [] => .ok (first, [])
      | t :: rest => match t.lexeme with
        | .symbol c => match trailingOperator? c, binaryOperator? c with
          | some operator, _ => readExtension stop least (.unary operator first) rest
          | none, some operator =>
            if operator.leftPower < least then .ok (first, t :: rest)
            else do
              let (second, more) ← readExpression stop operator.rightPower rest
              readExtension stop least (.binary operator first second) more
          | none, none => .ok (first, t :: rest)
        | _ => .ok (first, t :: rest) := by
  unfold readExtension readExpression
  rw [extend.eq_def]
  cases input with
  | nil => rfl
  | cons t rest =>
    obtain ⟨lexeme, position⟩ := t
    cases lexeme with
    | symbol c =>
      dsimp only
      cases trailingOperator? c with
      | some operator =>
        dsimp only
        cases extend stop least (.unary operator first) rest <;> rfl
      | none =>
        cases binaryOperator? c with
        | none => rfl
        | some operator =>
          dsimp only
          split
          · rfl
          · cases expression stop operator.rightPower rest with
            | error fault => rfl
            | ok p =>
              obtain ⟨second, more, fewer⟩ := p
              change Except.map _ (extend stop least (.binary operator first second) more >>= _) =
                (extend stop least (.binary operator first second) more).map _
              cases extend stop least (.binary operator first second) more <;> rfl
    | number text => rfl
    | name text => rfl
    | lineBreak => rfl

theorem readOperand_eq (stop : Nat) (input : List Token) :
    readOperand stop input = match input with
      | [] => .error ⟨.unexpectedEnd, stop⟩
      | t :: rest => match t.lexeme with
        | .number text => .ok (.number (Decimal.readDouble text), rest)
        | .name text => match rest with
          | [] => .ok (.variable (String.ofList text), [])
          | next :: more =>
            if next.lexeme = .symbol '(' then do
              let (arguments, left) ← readArguments stop more
              return (.call (String.ofList text) arguments, left)
            else .ok (.variable (String.ofList text), next :: more)
        | .symbol c => match leadingOperator? c with
          | some operator => do
            let (item, left) ← readOperand stop rest
            return (.unary operator item, left)
          | none =>
            if c = '(' then do
              let (item, more) ← readExpression stop 0 rest
              let left ← readSymbol stop ')' more
              return (item, left)
            else if c = '[' then do
              let (rows, left) ← readRows stop [] rest
              return (.matrix rows, left)
            else .error ⟨.unexpectedToken [c], t.position⟩
        | .lineBreak => .error ⟨.unexpectedLineBreak, t.position⟩ := by
  unfold readOperand readArguments readExpression readSymbol readRows
  rw [operand.eq_def]
  cases input with
  | nil => rfl
  | cons t rest =>
    obtain ⟨lexeme, position⟩ := t
    cases lexeme with
    | number text => rfl
    | name text =>
      cases rest with
      | nil => rfl
      | cons next more =>
        dsimp only
        split
        · cases callArguments stop more <;> rfl
        · rfl
    | symbol c =>
      dsimp only
      cases leadingOperator? c with
      | some operator =>
        dsimp only
        cases operand stop rest <;> rfl
      | none =>
        dsimp only
        split
        · cases expression stop 0 rest with
          | error fault => rfl
          | ok p =>
            obtain ⟨item, more, fewer⟩ := p
            change Except.map _ (expect stop ')' more >>= _) =
              ((expect stop ')' more).map _ >>= _)
            cases expect stop ')' more <;> rfl
        · split
          · cases matrixRows stop [] rest <;> rfl
          · rfl
    | lineBreak => rfl

theorem readArguments_eq (stop : Nat) (input : List Token) :
    readArguments stop input = match input with
      | [] => .error ⟨.unexpectedEnd, stop⟩
      | t :: rest =>
        if t.lexeme = .symbol ')' then .ok ([], rest)
        else do
          let (arguments, more) ← readElements stop (t :: rest)
          let left ← readSymbol stop ')' more
          return (arguments, left) := by
  unfold readArguments readElements readSymbol
  rw [callArguments.eq_def]
  cases input with
  | nil => rfl
  | cons t rest =>
    dsimp only
    split
    · rfl
    · cases argumentList stop (t :: rest) with
      | error fault => rfl
      | ok p =>
        obtain ⟨arguments, more, fewer⟩ := p
        change Except.map _ (expect stop ')' more >>= _) = ((expect stop ')' more).map _ >>= _)
        cases expect stop ')' more <;> rfl

theorem readElements_eq (stop : Nat) (input : List Token) :
    readElements stop input = (do
      let (first, more) ← readExpression stop 0 input
      match more with
      | [] => return ([first], [])
      | t :: rest =>
        if t.lexeme = .symbol ',' then
          let (others, left) ← readElements stop rest
          return (first :: others, left)
        else return ([first], t :: rest)) := by
  unfold readElements readExpression
  rw [argumentList]
  cases expression stop 0 input with
  | error fault => rfl
  | ok p =>
    obtain ⟨first, more, fewer⟩ := p
    cases more with
    | nil => rfl
    | cons t rest =>
      simp only [bind, Except.bind, Except.map]
      by_cases comma : t.lexeme = .symbol ','
      · simp only [if_pos comma]
        cases argumentList stop rest <;> rfl
      · simp only [if_neg comma]
        rfl

theorem readRows_eq (stop : Nat) (current : List Expr) (input : List Token) :
    readRows stop current input = match input with
      | [] => .error ⟨.unclosedBracket, stop⟩
      | t :: rest =>
        if t.lexeme = .symbol ']' then
          .ok (if current.isEmpty then [] else [current], rest)
        else if isSeparator t then do
          let (rows, left) ← readRows stop [] rest
          return (if current.isEmpty then rows else current :: rows, left)
        else (do
          let (element, more) ← readExpression stop 0 (t :: rest)
          match more with
          | [] => .error ⟨.unclosedBracket, stop⟩
          | next :: others =>
            if next.lexeme = .symbol ',' then readRows stop (current ++ [element]) others
            else if isSeparator next || next.lexeme == .symbol ']' then
              readRows stop (current ++ [element]) (next :: others)
            else .error ⟨.missingSeparator next.lexeme.text, next.position⟩) := by
  unfold readRows readExpression
  rw [matrixRows.eq_def]
  cases input with
  | nil => rfl
  | cons t rest =>
    dsimp only
    split
    · rfl
    · split
      · cases matrixRows stop [] rest <;> rfl
      · cases expression stop 0 (t :: rest) with
        | error fault => rfl
        | ok p =>
          obtain ⟨element, more, fewer⟩ := p
          cases more with
          | nil => rfl
          | cons next others =>
            simp only [bind, Except.bind, Except.map]
            by_cases comma : next.lexeme = .symbol ','
            · simp only [if_pos comma]
              cases matrixRows stop (current ++ [element]) others <;> rfl
            · simp only [if_neg comma]
              by_cases closed : (isSeparator next || next.lexeme == .symbol ']') = true
              · simp only [if_pos closed]
                cases matrixRows stop (current ++ [element]) (next :: others) <;> rfl
              · simp only [if_neg closed]

theorem readStatement_assignment (stop : Nat) (text : List Char) (p q : Nat)
    (rest : List Token) :
    readStatement stop (⟨.name text, p⟩ :: ⟨.symbol '=', q⟩ :: rest) = (do
      let (expr, left) ← readExpression stop 0 rest
      return (⟨expr, some (String.ofList text)⟩, left)) := by
  simp only [readStatement, readExpression, statement]
  cases expression stop 0 rest <;> rfl

theorem readStatement_expression (stop : Nat) {input : List Token}
    (plain : ∀ text p q rest, input ≠ ⟨.name text, p⟩ :: ⟨.symbol '=', q⟩ :: rest) :
    readStatement stop input = (do
      let (expr, left) ← readExpression stop 0 input
      return (⟨expr, none⟩, left)) := by
  unfold readStatement readExpression statement
  split
  · next text p q rest => exact absurd rfl (plain text p q rest)
  · cases expression stop 0 input <;> rfl

theorem statements_eq (stop : Nat) (input : List Token) :
    statements stop input = match input with
      | [] => .ok []
      | t :: rest =>
        if isSeparator t then statements stop rest
        else (do
          let (first, more) ← readStatement stop (t :: rest)
          match more with
          | [] => return [first]
          | next :: others =>
            if isSeparator next then do
              let later ← statements stop others
              return first :: later
            else .error ⟨.unexpectedToken next.lexeme.text, next.position⟩) := by
  rw [statements.eq_def]
  cases input with
  | nil => rfl
  | cons t rest =>
    dsimp only
    split
    · rfl
    · unfold readStatement
      cases statement stop (t :: rest) with
      | error fault => rfl
      | ok p =>
        obtain ⟨first, more, fewer⟩ := p
        cases more with
        | nil => rfl
        | cons next others => rfl

end MatrixCalculator.Language
