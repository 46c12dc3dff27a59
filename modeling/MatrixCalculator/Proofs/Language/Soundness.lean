import MatrixCalculator.Proofs.Language.Completeness

/-! Whatever is read has been derived by the grammar. What stands in front of an operator is
derived at the level that the operator asks for, since the operators inside it bind at least as
tightly. -/
namespace MatrixCalculator.Language

variable {stop least : Nat} {first item : Expr} {t : Token} {input more rest : List Token}

/-- An expression in front of the input, at the level of the operators that it has taken in. None
that the level would take in as well follows. -/
inductive Held (least : Nat) (before : List Lexeme) (tree : Expr) (input : List Token) : Prop
  | marked (d : Derivation .marked) (spelled : d.yield = before) (means : d.tree = tree)
  | power (d : Derivation .power) (spelled : d.yield = before) (means : d.tree = tree)
      (stops : Stops 30 input)
  | product (d : Derivation .product) (spelled : d.yield = before) (means : d.tree = tree)
      (stops : Stops 21 input) (le : least ≤ 20)
  | sum (d : Derivation .sum) (spelled : d.yield = before) (means : d.tree = tree)
      (stops : Stops 11 input) (le : least ≤ 10)

namespace Held

variable {before : List Lexeme} {tree : Expr}

theorem exists_sum (held : Held least before tree input) :
    ∃ d : Derivation .sum, d.yield = before ∧ d.tree = tree := by
  cases held with
  | marked d spelled means => exact ⟨.term (.factor (.base d)), spelled, means⟩
  | power d spelled means stops => exact ⟨.term (.factor d), spelled, means⟩
  | product d spelled means stops le => exact ⟨.term d, spelled, means⟩
  | sum d spelled means stops le => exact ⟨d, spelled, means⟩

theorem exists_product (held : Held least before tree input)
    (tighter : Stops 11 input → 10 < least) :
    ∃ d : Derivation .product, d.yield = before ∧ d.tree = tree := by
  cases held with
  | marked d spelled means => exact ⟨.factor (.base d), spelled, means⟩
  | power d spelled means stops => exact ⟨.factor d, spelled, means⟩
  | product d spelled means stops le => exact ⟨d, spelled, means⟩
  | sum d spelled means stops le => exact absurd le (Nat.not_le.mpr (tighter stops))

theorem exists_power (held : Held least before tree input)
    (tighter : Stops 21 input → 20 < least) :
    ∃ d : Derivation .power, d.yield = before ∧ d.tree = tree := by
  cases held with
  | marked d spelled means => exact ⟨.base d, spelled, means⟩
  | power d spelled means stops => exact ⟨d, spelled, means⟩
  | product d spelled means stops le => exact absurd le (Nat.not_le.mpr (tighter stops))
  | sum d spelled means stops le =>
    have := tighter (stops.mono (by decide))
    omega

theorem exists_marked (held : Held least before tree input) (tighter : ¬ Stops 30 input) :
    ∃ d : Derivation .marked, d.yield = before ∧ d.tree = tree := by
  cases held with
  | marked d spelled means => exact ⟨d, spelled, means⟩
  | power d spelled means stops => exact absurd stops tighter
  | product d spelled means stops le => exact absurd (stops.mono (by decide)) tighter
  | sum d spelled means stops le => exact absurd (stops.mono (by decide)) tighter

/-- A mark follows only an expression that has no binary operators outside brackets. -/
theorem mark (held : Held least before tree (t :: rest)) {operator : UnaryOperator}
    (spelled : t.lexeme = .symbol operator.symbol)
    (trailing : operator ∈ [.factorial, .transpose]) :
    Held least (before ++ [t.lexeme]) (.unary operator tree) rest := by
  obtain ⟨d, rfl, rfl⟩ := held.exists_marked fun stops => stops.not_trailing spelled trailing
  exact .marked (.mark d operator trailing) (by rw [spelled]; rfl) rfl

/-- A binary operator joins what it follows to the operand that it has read. -/
theorem binary (held : Held least before tree (t :: more)) {operator : BinaryOperator}
    (spelled : t.lexeme = .symbol operator.symbol) (le : least ≤ operator.leftPower)
    {behind : List Lexeme} {other : Expr} (right : Held operator.rightPower behind other rest)
    (stops : Stops operator.rightPower rest) :
    Held least (before ++ t.lexeme :: behind) (.binary operator tree other) rest := by
  have follows {bound : Nat} (stops : Stops bound (t :: more)) := stops.lt_of_binary spelled
  -- The operator that follows says how loose the expression in front of it can be.
  have additive (sort : operator ∈ [.add, .subtract]) :
      Held least (before ++ t.lexeme :: behind) (.binary operator tree other) rest := by
    obtain ⟨leftPower, rightPower⟩ := operator.powers_of_additive sort
    obtain ⟨d, rfl, rfl⟩ := held.exists_sum
    obtain ⟨e, rfl, rfl⟩ := right.exists_product (fun _ => by omega)
    exact .sum (.add d operator sort e) (by rw [spelled]; rfl) rfl
      (stops.mono (by omega)) (by omega)
  have multiplicative (sort : operator ∈ [.multiply, .divide, .leftDivide]) :
      Held least (before ++ t.lexeme :: behind) (.binary operator tree other) rest := by
    obtain ⟨leftPower, rightPower⟩ := operator.powers_of_multiplicative sort
    obtain ⟨d, rfl, rfl⟩ := held.exists_product fun stops => by
      have := follows stops
      omega
    obtain ⟨e, rfl, rfl⟩ := right.exists_power (fun _ => by omega)
    exact .product (.multiply d operator sort e) (by rw [spelled]; rfl) rfl
      (stops.mono (by omega)) (by omega)
  cases operator with
  | add | subtract => exact additive (by decide)
  | multiply | divide | leftDivide => exact multiplicative (by decide)
  | power =>
    obtain ⟨d, rfl, rfl⟩ := held.exists_marked fun stops => Nat.lt_irrefl 30 (follows stops)
    obtain ⟨e, rfl, rfl⟩ := right.exists_power (fun _ => by decide)
    exact .power (.raise d e) (by rw [spelled]; rfl) rfl stops

end Held

structure Sound (stop : Nat) (input : List Token) : Prop where
  operand : ∀ {item rest}, readOperand stop input = .ok (item, rest) →
    ∃ d : Derivation .signed, spelling input = d.yield ++ spelling rest ∧ d.tree = item
  extension : ∀ {least first before item rest}, Held least before first input →
    readExtension stop least first input = .ok (item, rest) →
    ∃ after, spelling input = after ++ spelling rest ∧ Held least (before ++ after) item rest ∧
      Stops least rest
  expression : ∀ {least item rest}, readExpression stop least input = .ok (item, rest) →
    ∃ before, spelling input = before ++ spelling rest ∧ Held least before item rest ∧
      Stops least rest
  elements : ∀ {items rest}, readElements stop input = .ok (items, rest) →
    ∃ d : Derivation .elements, spelling input = d.yield ++ spelling rest ∧ d.tree = items
  row : ∀ {current rows rest}, ¬ RowEnds input → readRows stop current input = .ok (rows, rest) →
    ∃ (d : Derivation .elements) (trailing : Bool) (later : Derivation (.tail .row)),
      spelling input = (Derivation.row d trailing).yield ++
        (later.yield ++ .symbol ']' :: spelling rest) ∧ rows = (current ++ d.tree) :: later.tree
  rowsAfter : ∀ {current rows rest}, current ≠ [] → RowEnds input →
    readRows stop current input = .ok (rows, rest) →
    ∃ later : Derivation (.tail .row),
      spelling input = later.yield ++ .symbol ']' :: spelling rest ∧ rows = current :: later.tree
  rows : ∀ {rows rest}, readRows stop [] input = .ok (rows, rest) →
    ∃ d : Derivation (.block .row),
      spelling input = d.yield ++ .symbol ']' :: spelling rest ∧ d.tree = rows

theorem Sound.sum (sound : Sound stop input)
    (done : readExpression stop 0 input = .ok (item, rest)) :
    ∃ d : Derivation .sum, spelling input = d.yield ++ spelling rest ∧ d.tree = item := by
  obtain ⟨before, spelled, held, _⟩ := sound.expression done
  obtain ⟨d, rfl, means⟩ := held.exists_sum
  exact ⟨d, spelled, means⟩

theorem of_readSymbol {symbol : Char} (done : readSymbol stop symbol input = .ok rest) :
    spelling input = .symbol symbol :: spelling rest := by
  rw [readSymbol_eq] at done
  cases input with
  | nil => contradiction
  | cons t more =>
    dsimp only at done
    split at done
    · next spelled =>
      cases done
      rw [spelling_cons, spelled]
    · contradiction

theorem Sound.arguments {items : List Expr} (sound : Sound stop input)
    (done : readArguments stop input = .ok (items, rest)) :
    spelling input = .symbol ')' :: spelling rest ∧ items = [] ∨
      ∃ d : Derivation .elements,
        spelling input = d.yield ++ .symbol ')' :: spelling rest ∧ d.tree = items := by
  rw [readArguments_eq] at done
  cases input with
  | nil => contradiction
  | cons t more =>
    dsimp only at done
    split at done
    · next closes =>
      cases done
      exact .inl ⟨by rw [spelling_cons, closes], rfl⟩
    · obtain ⟨⟨arguments, left⟩, read, done⟩ := exists_of_bind_eq_ok done
      obtain ⟨behind, closed, done⟩ := exists_of_bind_eq_ok done
      cases done
      obtain ⟨d, spelled, means⟩ := sound.elements read
      exact .inr ⟨d, by rw [spelled, of_readSymbol closed], means⟩

section Steps

variable (shorter : ∀ more : List Token, more.length < input.length → Sound stop more)
include shorter

theorem operand_sound (done : readOperand stop input = .ok (item, rest)) :
    ∃ d : Derivation .signed, spelling input = d.yield ++ spelling rest ∧ d.tree = item := by
  rw [readOperand_eq] at done
  cases input with
  | nil => contradiction
  | cons t more =>
    have sound := shorter more (Nat.lt_succ_self _)
    rw [spelling_cons]
    dsimp only at done
    split at done
    · next text number =>
      cases done
      exact ⟨.unsigned (.number text), by rw [number]; rfl, rfl⟩
    · next text name =>
      split at done
      · cases done
        exact ⟨.unsigned (.name text), by rw [name]; rfl, rfl⟩
      · next u behind =>
        split at done
        · next opening =>
          obtain ⟨⟨arguments, left⟩, read, done⟩ := exists_of_bind_eq_ok done
          cases done
          have sound := shorter behind (by simp only [List.length_cons]; omega)
          obtain ⟨spelled, rfl⟩ | ⟨d, spelled, rfl⟩ := sound.arguments read
          · exact ⟨.unsigned (.call text), by
              rw [spelling_cons, name, opening, spelled]; rfl, rfl⟩
          · exact ⟨.unsigned (.callWith text d), by
              rw [spelling_cons, name, opening, spelled]
              simp [Derivation.yield], rfl⟩
        · cases done
          exact ⟨.unsigned (.name text), by rw [name]; rfl, rfl⟩
    · next c symbol =>
      split at done
      · next operator found =>
        obtain ⟨rfl, leading⟩ := leadingOperator?_eq_some_iff.mp found
        obtain ⟨⟨operand, left⟩, read, done⟩ := exists_of_bind_eq_ok done
        cases done
        obtain ⟨d, spelled, rfl⟩ := sound.operand read
        exact ⟨.sign operator leading d, by rw [symbol, spelled]; rfl, rfl⟩
      · split at done
        · next opening =>
          obtain ⟨⟨inner, left⟩, read, done⟩ := exists_of_bind_eq_ok done
          obtain ⟨behind, closed, done⟩ := exists_of_bind_eq_ok done
          cases done
          obtain ⟨d, spelled, rfl⟩ := sound.sum read
          exact ⟨.unsigned (.parentheses d), by
            rw [symbol, opening, spelled, of_readSymbol closed]
            simp [Derivation.yield], rfl⟩
        · split at done
          · next opening =>
            obtain ⟨⟨rows, left⟩, read, done⟩ := exists_of_bind_eq_ok done
            cases done
            obtain ⟨d, spelled, rfl⟩ := sound.rows read
            exact ⟨.unsigned (.matrix d), by
              rw [symbol, opening, spelled]
              simp [Derivation.yield], rfl⟩
          · contradiction
    · contradiction

theorem extension_sound {before : List Lexeme} (held : Held least before first input)
    (done : readExtension stop least first input = .ok (item, rest)) :
    ∃ after, spelling input = after ++ spelling rest ∧ Held least (before ++ after) item rest ∧
      Stops least rest := by
  cases extended_of_readExtension done with
  | done stops => exact ⟨[], rfl, by simpa using held, stops⟩
  | @trailing t more _ operator _ spelled trailing later =>
    have sound := shorter more (Nat.lt_succ_self _)
    obtain ⟨after, same, held, stops⟩ := sound.extension (held.mark spelled trailing) later
    exact ⟨t.lexeme :: after, by rw [spelling_cons, same]; rfl, by simpa using held, stops⟩
  | @binary t more left _ operator second _ spelled le right later =>
    have sound := shorter more (Nat.lt_succ_self _)
    obtain ⟨behind, same, right_held, stops⟩ := sound.expression right
    have sound := shorter left (Nat.lt_succ_of_lt (shorter_of_readExpression right))
    obtain ⟨after, later_same, held, stops⟩ :=
      sound.extension (held.binary spelled le right_held stops) later
    refine ⟨t.lexeme :: (behind ++ after), ?_, by simpa using held, stops⟩
    rw [spelling_cons, same, later_same, List.cons_append, List.append_assoc]

theorem expression_sound (done : readExpression stop least input = .ok (item, rest)) :
    ∃ before, spelling input = before ++ spelling rest ∧ Held least before item rest ∧
      Stops least rest := by
  rw [readExpression_eq] at done
  obtain ⟨⟨first, left⟩, read, later⟩ := exists_of_bind_eq_ok done
  obtain ⟨d, spelled, means⟩ := operand_sound shorter read
  have sound := shorter left (shorter_of_readOperand read)
  obtain ⟨after, same, held, stops⟩ := sound.extension (.marked (.bare d) rfl means) later
  exact ⟨d.yield ++ after, by rw [spelled, same, List.append_assoc], held, stops⟩

theorem sum_sound (done : readExpression stop 0 input = .ok (item, rest)) :
    ∃ d : Derivation .sum, spelling input = d.yield ++ spelling rest ∧ d.tree = item := by
  obtain ⟨before, spelled, held, _⟩ := expression_sound shorter done
  obtain ⟨d, rfl, means⟩ := held.exists_sum
  exact ⟨d, spelled, means⟩

theorem elements_sound {items : List Expr} (done : readElements stop input = .ok (items, rest)) :
    ∃ d : Derivation .elements, spelling input = d.yield ++ spelling rest ∧ d.tree = items := by
  rw [readElements_eq] at done
  obtain ⟨⟨first, more⟩, read, done⟩ := exists_of_bind_eq_ok done
  obtain ⟨d, spelled, rfl⟩ := sum_sound shorter read
  cases more with
  | nil =>
    cases done
    exact ⟨.element d, spelled, rfl⟩
  | cons t behind =>
    dsimp only at done
    split at done
    · next comma =>
      obtain ⟨⟨others, left⟩, later, done⟩ := exists_of_bind_eq_ok done
      cases done
      have sound := shorter behind (Nat.lt_of_succ_lt (shorter_of_readExpression read))
      obtain ⟨e, same, rfl⟩ := sound.elements later
      exact ⟨.comma d e, by rw [spelled, spelling_cons, comma, same]; simp [Derivation.yield], rfl⟩
    · cases done
      exact ⟨.element d, spelled, rfl⟩

theorem row_sound {current : List Expr} {rows : List (List Expr)} (goes : ¬ RowEnds input)
    (done : readRows stop current input = .ok (rows, rest)) :
    ∃ (d : Derivation .elements) (trailing : Bool) (later : Derivation (.tail .row)),
      spelling input = (Derivation.row d trailing).yield ++
        (later.yield ++ .symbol ']' :: spelling rest) ∧ rows = (current ++ d.tree) :: later.tree := by
  rw [readRows_eq] at done
  cases input with
  | nil => contradiction
  | cons t more =>
    dsimp only at done
    rw [if_neg fun closes => goes ⟨t, more, rfl, .inr closes⟩,
      if_neg fun separates => goes ⟨t, more, rfl, .inl separates⟩] at done
    obtain ⟨⟨element, left⟩, read, done⟩ := exists_of_bind_eq_ok done
    obtain ⟨d, spelled, rfl⟩ := sum_sound shorter read
    have fewer := shorter_of_readExpression read
    have begun : current ++ [d.tree] ≠ [] := by simp
    cases left with
    | nil => contradiction
    | cons u others =>
      dsimp only at done
      split at done
      · next comma =>
        have sound := shorter others (Nat.lt_of_succ_lt fewer)
        by_cases ends : RowEnds others
        · obtain ⟨later, same, rfl⟩ := sound.rowsAfter begun ends done
          refine ⟨.element d, true, later, ?_, rfl⟩
          rw [spelled, spelling_cons, comma, same]
          simp [Derivation.yield]
        · obtain ⟨e, trailing, later, same, rfl⟩ := sound.row ends done
          refine ⟨.comma d e, trailing, later, ?_, ?_⟩
          · rw [spelled, spelling_cons, comma, same]
            simp [Derivation.yield]
          · simp [Derivation.tree]
      · split at done
        · next ended =>
          have ends : RowEnds (u :: others) :=
            ⟨u, others, rfl, by simpa only [Bool.or_eq_true, beq_iff_eq] using ended⟩
          obtain ⟨later, same, rfl⟩ := (shorter _ fewer).rowsAfter begun ends done
          refine ⟨.element d, false, later, ?_, rfl⟩
          rw [spelled, same]
          simp [Derivation.yield]
        · contradiction

end Steps

/-- Pieces after a separator are a block when no piece is in front, and a tail behind one. -/
theorem exists_after_separator {p : Piece} (separator : Separator) (d : Derivation (.block p)) :
    ∃ later : Derivation (.tail p),
      later.yield = separator.lexeme :: d.yield ∧ later.tree = d.tree := by
  cases d with
  | blank separators => exact ⟨.finish (separator :: separators), rfl, rfl⟩
  | filled leading first others => exact ⟨.next separator leading first others, rfl, rfl⟩

theorem exists_separated {p : Piece} (separator : Separator) (d : Derivation (.block p)) :
    ∃ e : Derivation (.block p), e.yield = separator.lexeme :: d.yield ∧ e.tree = d.tree := by
  cases d with
  | blank separators => exact ⟨.blank (separator :: separators), rfl, rfl⟩
  | filled leading first others => exact ⟨.filled (separator :: leading) first others, rfl, rfl⟩

section Steps

variable (shorter : ∀ more : List Token, more.length < input.length → Sound stop more)
include shorter

theorem rowsAfter_sound {current : List Expr} {rows : List (List Expr)} (begun : current ≠ [])
    (ends : RowEnds input) (done : readRows stop current input = .ok (rows, rest)) :
    ∃ later : Derivation (.tail .row),
      spelling input = later.yield ++ .symbol ']' :: spelling rest ∧
        rows = current :: later.tree := by
  obtain ⟨t, more, rfl, ends⟩ := ends
  rw [readRows_eq] at done
  dsimp only at done
  have filled : current.isEmpty = false := by simpa using begun
  split at done
  · next closes =>
    cases done
    exact ⟨.finish [], by rw [spelling_cons, closes]; rfl, by rw [filled]; rfl⟩
  · next inside =>
    have separates := ends.resolve_right inside
    rw [if_pos separates] at done
    obtain ⟨⟨rows, left⟩, read, done⟩ := exists_of_bind_eq_ok done
    cases done
    obtain ⟨separator, spelled⟩ := isSeparator_iff.mp separates
    obtain ⟨d, same, rfl⟩ := (shorter more (Nat.lt_succ_self _)).rows read
    obtain ⟨later, yields, means⟩ := exists_after_separator separator d
    exact ⟨later, by rw [spelling_cons, spelled, same, yields]; rfl, by rw [filled, means]; rfl⟩

theorem rows_sound {rows : List (List Expr)} (done : readRows stop [] input = .ok (rows, rest)) :
    ∃ d : Derivation (.block .row),
      spelling input = d.yield ++ .symbol ']' :: spelling rest ∧ d.tree = rows := by
  by_cases ends : RowEnds input
  · obtain ⟨t, more, rfl, ends⟩ := ends
    rw [readRows_eq] at done
    dsimp only at done
    split at done
    · next closes =>
      cases done
      exact ⟨.blank [], by rw [spelling_cons, closes]; rfl, rfl⟩
    · next inside =>
      have separates := ends.resolve_right inside
      rw [if_pos separates] at done
      obtain ⟨⟨rows, left⟩, read, done⟩ := exists_of_bind_eq_ok done
      cases done
      obtain ⟨separator, spelled⟩ := isSeparator_iff.mp separates
      obtain ⟨d, same, rfl⟩ := (shorter more (Nat.lt_succ_self _)).rows read
      obtain ⟨e, yields, means⟩ := exists_separated separator d
      exact ⟨e, by rw [spelling_cons, spelled, same, yields]; rfl, means⟩
  · obtain ⟨d, trailing, later, spelled, rfl⟩ := row_sound shorter ends done
    exact ⟨.filled [] (.row d trailing) later, by rw [spelled]; simp [Derivation.yield], rfl⟩

end Steps

theorem sound (stop : Nat) (input : List Token) : Sound stop input :=
  have shorter (more : List Token) (_ : more.length < input.length) : Sound stop more :=
    sound stop more
  { operand := operand_sound shorter
    extension := extension_sound shorter
    expression := expression_sound shorter
    elements := elements_sound shorter
    row := row_sound shorter
    rowsAfter := rowsAfter_sound shorter
    rows := rows_sound shorter }
termination_by input.length

theorem statement_sound {s : Statement} (done : readStatement stop input = .ok (s, rest)) :
    ∃ d : Derivation (.piece .statement),
      spelling input = d.yield ++ spelling rest ∧ d.tree = s := by
  by_cases assigns : ∃ text p q more,
      input = ⟨.name text, p⟩ :: ⟨.symbol '=', q⟩ :: more
  · obtain ⟨text, p, q, more, rfl⟩ := assigns
    rw [readStatement_assignment] at done
    obtain ⟨⟨value, left⟩, read, done⟩ := exists_of_bind_eq_ok done
    cases done
    obtain ⟨d, spelled, rfl⟩ := (sound stop more).sum read
    exact ⟨.assignment text d, by rw [spelling_cons, spelling_cons, spelled]; rfl, rfl⟩
  · rw [readStatement_expression stop fun text p q more same =>
      assigns ⟨text, p, q, more, same⟩] at done
    obtain ⟨⟨value, left⟩, read, done⟩ := exists_of_bind_eq_ok done
    cases done
    obtain ⟨d, spelled, rfl⟩ := (sound stop input).sum read
    exact ⟨.expression d, spelled, rfl⟩

theorem statements_sound {ss : List Statement} (done : statements stop input = .ok ss) :
    ∃ d : Derivation (.block .statement), d.yield = spelling input ∧ d.tree = ss := by
  induction size : input.length using Nat.strongRecOn generalizing input ss with
  | ind n ih =>
    subst size
    rw [statements_eq] at done
    cases input with
    | nil =>
      cases done
      exact ⟨.blank [], rfl, rfl⟩
    | cons t more =>
      dsimp only at done
      split at done
      · next separates =>
        obtain ⟨separator, spelled⟩ := isSeparator_iff.mp separates
        obtain ⟨d, same, rfl⟩ := ih _ (Nat.lt_succ_self _) done rfl
        obtain ⟨e, yields, means⟩ := exists_separated separator d
        exact ⟨e, by rw [yields, spelling_cons, spelled, same], means⟩
      · obtain ⟨⟨first, left⟩, read, done⟩ := exists_of_bind_eq_ok done
        obtain ⟨d, spelled, rfl⟩ := statement_sound read
        have fewer := shorter_of_readStatement read
        cases left with
        | nil =>
          cases done
          exact ⟨.filled [] d (.finish []), by rw [spelled]; rfl, rfl⟩
        | cons u others =>
          dsimp only at done
          split at done
          · next separates =>
            obtain ⟨later, read, done⟩ := exists_of_bind_eq_ok done
            cases done
            obtain ⟨separator, follows⟩ := isSeparator_iff.mp separates
            obtain ⟨e, same, rfl⟩ := ih _ (Nat.lt_of_succ_lt fewer) read rfl
            obtain ⟨behind, yields, means⟩ := exists_after_separator separator e
            refine ⟨.filled [] d behind, ?_, by rw [← means]; rfl⟩
            rw [spelled, spelling_cons, follows, ← same, ← yields]
            rfl
          · contradiction

end MatrixCalculator.Language
