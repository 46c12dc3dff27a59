import MatrixCalculator.Proofs.Language.Completeness

/-! Where the parts of an expression end. Reading decides it, since it makes one thing of every
input: at the level of an operator it goes on to the operator and no further. -/
namespace MatrixCalculator.Language

variable {strength strength' bound bound' : Nat} {tree tree' : Expr}
  {operator operator' : BinaryOperator} {lexemes lexemes' rest rest' : List Lexeme}

/-- An operand that takes in operators becomes part of a larger tree. -/
theorem sizeOf_lt_of_readExtension {stop least : Nat} {first item : Expr}
    {input rest : List Token} (done : readExtension stop least first input = .ok (item, rest)) :
    item = first ∧ rest = input ∨ sizeOf first < sizeOf item := by
  induction size : input.length using Nat.strongRecOn generalizing first input with
  | ind n ih =>
    subst size
    cases extended_of_readExtension done with
    | done stops => exact .inl ⟨rfl, rfl⟩
    | @trailing t more _ operator _ spelled trailing later =>
      have grows : sizeOf first < sizeOf (Expr.unary operator first) := by
        rw [Expr.unary.sizeOf_spec]
        omega
      obtain ⟨rfl, _⟩ | larger := ih _ (Nat.lt_succ_self _) later rfl
      · exact .inr grows
      · exact .inr (Nat.lt_trans grows larger)
    | @binary t more left _ operator second _ spelled held right later =>
      have grows : sizeOf first < sizeOf (Expr.binary operator first second) := by
        rw [Expr.binary.sizeOf_spec]
        omega
      have fewer := Nat.lt_succ_of_lt (shorter_of_readExpression right)
      obtain ⟨rfl, _⟩ | larger := ih _ fewer later rfl
      · exact .inr grows
      · exact .inr (Nat.lt_trans grows larger)

theorem ReadsUpTo.whole (reads : ReadsUpTo 0 strength bound lexemes tree)
    {least : Nat} (le : least ≤ strength) :
    readExpression 0 least (tokens lexemes) = .ok (tree, []) := by
  have read := reads (tokens lexemes) [] least (spelling_tokens _) le
    (fun c follows => by contradiction) (fun follows => by contradiction)
  rw [List.append_nil] at read
  rw [read]
  exact readExtension_stops fun c follows => by contradiction

theorem ReadsUpTo.in_front (reads : ReadsUpTo 0 strength bound lexemes tree) {least : Nat}
    (le : least ≤ strength) (follows : operator.leftPower < bound) :
    readExpression 0 least (tokens (lexemes ++ .symbol operator.symbol :: rest)) =
      readExtension 0 least tree (tokens (.symbol operator.symbol :: rest)) := by
  rw [tokens_append]
  exact reads _ _ _ (spelling_tokens _) le (stops_cons_binary rfl follows)
    (notCalled_cons_binary rfl)

/-- What is read at a level does not begin like something before a weaker operator. -/
theorem ReadsUpTo.ne_of_weaker (reads : ReadsUpTo 0 strength bound lexemes tree)
    (other : ReadsUpTo 0 strength' bound' lexemes' tree') (least : Nat) (le : least ≤ strength)
    (other_le : least ≤ strength') (weaker : operator.leftPower < least)
    (follows : operator.leftPower < bound') :
    lexemes ≠ lexemes' ++ .symbol operator.symbol :: rest := by
  intro same
  have whole := reads.whole le
  rw [same, other.in_front other_le follows, tokens_cons,
    readExtension_stops (stops_cons_binary rfl weaker)] at whole
  cases (Prod.mk.inj (Except.ok.inj whole)).2

/-- What an operator follows has another tree than what it becomes part of. -/
theorem ReadsUpTo.ne_of_longer (reads : ReadsUpTo 0 strength bound lexemes tree)
    (other : ReadsUpTo 0 strength' bound' lexemes' tree')
    (follows : operator.leftPower < bound)
    (longer : lexemes' = lexemes ++ .symbol operator.symbol :: rest) : tree ≠ tree' := by
  intro same
  have whole := other.whole (Nat.zero_le _)
  rw [longer, reads.in_front (Nat.zero_le _) follows] at whole
  obtain ⟨_, left⟩ | larger := sizeOf_lt_of_readExtension whole
  · cases left
  · rw [same] at larger
    exact Nat.lt_irrefl _ larger

theorem ReadsUpTo.split (operator operator' : BinaryOperator)
    (reads : ReadsUpTo 0 strength bound lexemes tree)
    (other : ReadsUpTo 0 strength' bound' lexemes' tree') (trees : tree = tree')
    (follows : operator.leftPower < bound) (other_follows : operator'.leftPower < bound')
    (same : lexemes ++ .symbol operator.symbol :: rest =
      lexemes' ++ .symbol operator'.symbol :: rest') :
    lexemes = lexemes' ∧ rest = rest' := by
  -- A longer front would have taken in the operator behind the other one, so its tree would be
  -- larger.
  obtain ⟨middle, rfl, back⟩ | ⟨middle, rfl, back⟩ := List.append_eq_append_iff.mp same
  · cases middle with
    | nil => exact ⟨by simp, (List.cons.inj back).2⟩
    | cons lexeme middle =>
      cases (List.cons.inj back).1
      exact absurd trees (reads.ne_of_longer other follows rfl)
  · cases middle with
    | nil => exact ⟨by simp, (List.cons.inj back).2.symm⟩
    | cons lexeme middle =>
      cases (List.cons.inj back).1
      exact absurd trees.symm (other.ne_of_longer reads other_follows rfl)

/-- Expressions in front of delimiters end at the same place. -/
theorem ReadsUpTo.split_delimited (reads : ReadsUpTo 0 strength bound lexemes tree)
    (other : ReadsUpTo 0 strength' bound' lexemes' tree') (delimited : Delimited (tokens rest))
    (other_delimited : Delimited (tokens rest')) (same : lexemes ++ rest = lexemes' ++ rest') :
    lexemes = lexemes' ∧ rest = rest' := by
  have first := reads.alone (spelling_tokens _) delimited
  have second := other.alone (spelling_tokens _) other_delimited
  rw [← tokens_append, same, tokens_append, second] at first
  obtain rfl := tokens_inj (Prod.mk.inj (Except.ok.inj first)).2
  exact ⟨List.append_cancel_right same, rfl⟩

theorem delimited_tokens_nil : Delimited (tokens []) :=
  fun c follows => by contradiction

theorem delimited_tokens_cons (c : Char) (rest : List Lexeme)
    (delimiter : c ∈ [')', ']', ',', ';', '=']) :
    Delimited (tokens (.symbol c :: rest)) :=
  delimited_cons_symbol _ rfl delimiter

theorem UnaryOperator.symbol_injective {operator operator' : UnaryOperator}
    (same : operator.symbol = operator'.symbol) : operator = operator' := by
  cases operator <;> cases operator' <;> first | rfl | contradiction

namespace Derivation

theorem tree_eq_of_yield (d e : Derivation .sum) (same : d.yield = e.yield) : d.tree = e.tree := by
  have first := ReadsUpTo.whole (d.reads 0) (Nat.zero_le _)
  have second := ReadsUpTo.whole (e.reads 0) (Nat.zero_le _)
  rw [same, second] at first
  exact (Prod.mk.inj (Except.ok.inj first)).1.symm

/-- In front of an additive operator, a sum begins with a product in front of one. -/
theorem exists_leading_product : (d : Derivation .sum) → (operator : BinaryOperator) →
    operator ∈ [.add, .subtract] → (rest : List Lexeme) →
    ∃ (first : Derivation .product) (operator' : BinaryOperator) (rest' : List Lexeme),
      operator' ∈ [.add, .subtract] ∧
        d.yield ++ .symbol operator.symbol :: rest =
          first.yield ++ .symbol operator'.symbol :: rest'
  | term only, operator, additive, rest => ⟨only, operator, rest, additive, rfl⟩
  | add left inner additive right, operator, _, rest => by
    obtain ⟨first, operator', rest', sort, same⟩ := exists_leading_product left inner additive
      (right.yield ++ .symbol operator.symbol :: rest)
    exact ⟨first, operator', rest', sort, by rw [← same]; simp [yield]⟩

theorem exists_leading_power : (d : Derivation .product) → (operator : BinaryOperator) →
    operator ∈ [.multiply, .divide, .leftDivide] → (rest : List Lexeme) →
    ∃ (first : Derivation .power) (operator' : BinaryOperator) (rest' : List Lexeme),
      operator' ∈ [.multiply, .divide, .leftDivide] ∧
        d.yield ++ .symbol operator.symbol :: rest =
          first.yield ++ .symbol operator'.symbol :: rest'
  | factor only, operator, multiplicative, rest => ⟨only, operator, rest, multiplicative, rfl⟩
  | multiply left inner multiplicative right, operator, _, rest => by
    obtain ⟨first, operator', rest', sort, same⟩ := exists_leading_power left inner multiplicative
      (right.yield ++ .symbol operator.symbol :: rest)
    exact ⟨first, operator', rest', sort, by rw [← same]; simp [yield]⟩

theorem exists_leading_operand : (d : Derivation .marked) → (operator : UnaryOperator) →
    (rest : List Lexeme) →
    ∃ (first : Derivation .signed) (operator' : UnaryOperator) (rest' : List Lexeme),
      d.yield ++ .symbol operator.symbol :: rest =
        first.yield ++ .symbol operator'.symbol :: rest'
  | bare only, operator, rest => ⟨only, operator, rest, rfl⟩
  | mark operand inner _, operator, rest => by
    obtain ⟨first, operator', rest', same⟩ := exists_leading_operand operand inner
      (.symbol operator.symbol :: rest)
    exact ⟨first, operator', rest', by rw [← same]; simp [yield]⟩

theorem product_ne_sum (d : Derivation .product) (e : Derivation .sum) (operator : BinaryOperator)
    (additive : operator ∈ [.add, .subtract]) (rest : List Lexeme) :
    d.yield ≠ e.yield ++ .symbol operator.symbol :: rest := by
  obtain ⟨first, operator', rest', sort, same⟩ := e.exists_leading_product operator additive rest
  obtain ⟨leftPower, _⟩ := operator'.powers_of_additive sort
  rw [same]
  exact ReadsUpTo.ne_of_weaker (d.reads 0) (first.reads 0) 11 (by decide) (by decide)
    (by omega) (by omega)

theorem power_ne_product (d : Derivation .power) (e : Derivation .product)
    (operator : BinaryOperator) (multiplicative : operator ∈ [.multiply, .divide, .leftDivide])
    (rest : List Lexeme) : d.yield ≠ e.yield ++ .symbol operator.symbol :: rest := by
  obtain ⟨first, operator', rest', sort, same⟩ :=
    e.exists_leading_power operator multiplicative rest
  obtain ⟨leftPower, _⟩ := operator'.powers_of_multiplicative sort
  rw [same]
  exact ReadsUpTo.ne_of_weaker (d.reads 0) (first.reads 0) 21 (by decide) (by decide)
    (by omega) (by omega)

theorem readsUpTo_marked (d : Derivation .marked) : ReadsUpTo 0 31 31 d.yield d.tree :=
  ReadsMarked.upTo (d.reads 0)

theorem marked_ne_power (d e : Derivation .marked) (rest : List Lexeme) :
    d.yield ≠ e.yield ++ .symbol '^' :: rest :=
  @ReadsUpTo.ne_of_weaker _ _ _ _ _ _ .power _ _ _ d.readsUpTo_marked e.readsUpTo_marked 31
    (by decide) (by decide) (by decide) (by decide)

theorem signed_ne_marked (d : Derivation .signed) (e : Derivation .marked)
    (operator : UnaryOperator) (rest : List Lexeme) :
    d.yield ≠ e.yield ++ .symbol operator.symbol :: rest := by
  obtain ⟨first, operator', rest', leads⟩ := e.exists_leading_operand operator rest
  intro same
  have whole := (d.reads 0) (tokens d.yield) [] (spelling_tokens _) fun follows => by contradiction
  have front := (first.reads 0) (tokens first.yield) (tokens (.symbol operator'.symbol :: rest'))
    (spelling_tokens _) (notCalled_cons_trailing rfl)
  rw [List.append_nil, same, leads, tokens_append, front] at whole
  cases (Prod.mk.inj (Except.ok.inj whole)).2

theorem closing_ne (d : Derivation .elements) :
    [Lexeme.symbol ')'] ≠ d.yield ++ [.symbol ')'] := by
  obtain ⟨first, more, spelled, _⟩ := d.yield_opens trivial
  intro same
  rw [spelled] at same
  cases more <;> simp at same

theorem sum_ne_comma (d e : Derivation .sum) (rest : List Lexeme) :
    d.yield ≠ e.yield ++ .symbol ',' :: rest := by
  intro same
  cases (ReadsUpTo.split_delimited (d.reads 0) (e.reads 0) delimited_tokens_nil
    (delimited_tokens_cons _ _ (by decide)) ((List.append_nil _).trans same)).2

theorem atom_ne_signed (d : Derivation .atom) {operator : UnaryOperator}
    (leading : operator ∈ [.plus, .minus]) (rest : List Lexeme) :
    d.yield ≠ .symbol operator.symbol :: rest := by
  have brackets : operator.symbol ≠ '(' ∧ operator.symbol ≠ '[' := by
    revert leading
    cases operator <;> decide
  intro same
  cases d <;> simp only [yield, List.cons.injEq, Lexeme.symbol.injEq, reduceCtorEq, false_and]
    at same
  · exact brackets.1 same.1.symm
  · exact brackets.2 same.1.symm

theorem add_split {left left' : Derivation .sum} {operator operator' : BinaryOperator}
    {additive : operator ∈ [.add, .subtract]} {additive' : operator' ∈ [.add, .subtract]}
    {right right' : Derivation .product}
    (same : (add left operator additive right).yield =
      (add left' operator' additive' right').yield) :
    operator = operator' ∧ left.yield = left'.yield ∧ right.yield = right'.yield := by
  have trees := tree_eq_of_yield (add left operator additive right)
    (add left' operator' additive' right') same
  simp only [tree, Expr.binary.injEq] at trees
  obtain ⟨rfl, left_trees, _⟩ := trees
  obtain ⟨power, _⟩ := operator.powers_of_additive additive
  exact ⟨rfl, ReadsUpTo.split operator operator (left.reads 0) (left'.reads 0) left_trees
    (by omega) (by omega) same⟩

theorem multiply_split {left left' : Derivation .product} {operator operator' : BinaryOperator}
    {multiplicative : operator ∈ [.multiply, .divide, .leftDivide]}
    {multiplicative' : operator' ∈ [.multiply, .divide, .leftDivide]}
    {right right' : Derivation .power}
    (same : (multiply left operator multiplicative right).yield =
      (multiply left' operator' multiplicative' right').yield) :
    operator = operator' ∧ left.yield = left'.yield ∧ right.yield = right'.yield := by
  have trees := tree_eq_of_yield (term (multiply left operator multiplicative right))
    (term (multiply left' operator' multiplicative' right')) same
  simp only [tree, Expr.binary.injEq] at trees
  obtain ⟨rfl, left_trees, _⟩ := trees
  obtain ⟨power, _⟩ := operator.powers_of_multiplicative multiplicative
  exact ⟨rfl, ReadsUpTo.split operator operator (left.reads 0) (left'.reads 0) left_trees
    (by omega) (by omega) same⟩

theorem raise_split {operand operand' : Derivation .marked} {exponent exponent' : Derivation .power}
    (same : (raise operand exponent).yield = (raise operand' exponent').yield) :
    operand.yield = operand'.yield ∧ exponent.yield = exponent'.yield := by
  have trees := tree_eq_of_yield (term (factor (raise operand exponent)))
    (term (factor (raise operand' exponent'))) same
  simp only [tree, Expr.binary.injEq, true_and] at trees
  exact ReadsUpTo.split .power .power operand.readsUpTo_marked operand'.readsUpTo_marked trees.1
    (by decide) (by decide) same

theorem comma_split {first first' : Derivation .sum} {others others' : Derivation .elements}
    (same : (comma first others).yield = (comma first' others').yield) :
    first.yield = first'.yield ∧ others.yield = others'.yield := by
  obtain ⟨firsts, behind⟩ := ReadsUpTo.split_delimited (first.reads 0) (first'.reads 0)
    (delimited_tokens_cons _ _ (by decide)) (delimited_tokens_cons _ _ (by decide)) same
  exact ⟨firsts, (List.cons.inj behind).2⟩

end Derivation

end MatrixCalculator.Language
