import MatrixCalculator.Proofs.Language.Splitting

/-! No two derivations of a nonterminal spell the same lexemes. -/
namespace MatrixCalculator.Language

variable {lexemes rest rest' : List Lexeme}

section Pieces

theorem ends_nil : StatementEnds (tokens []) :=
  fun t more same => by contradiction

theorem statementEnds_of_append (ends : StatementEnds (tokens (lexemes ++ rest))) :
    StatementEnds (tokens lexemes) := by
  cases lexemes with
  | nil => exact fun t more same => by contradiction
  | cons lexeme lexemes =>
    intro t more same
    cases same
    exact ends _ _ rfl

theorem readOperand_ends {stop : Nat} {input : List Token} (ends : StatementEnds input) :
    ∃ fault, readOperand stop input = .error fault := by
  rw [readOperand_eq]
  cases input with
  | nil => exact ⟨_, rfl⟩
  | cons t more =>
    obtain ⟨separator, spelled⟩ := isSeparator_iff.mp (ends t more rfl)
    simp only [spelled]
    cases separator <;> exact ⟨_, rfl⟩

theorem readElements_ends {stop : Nat} {input : List Token} (ends : StatementEnds input)
    (result : List Expr × List Token) : readElements stop input ≠ .ok result := by
  obtain ⟨fault, failed⟩ := @readOperand_ends stop _ ends
  rw [readElements_eq, readExpression_eq, failed]
  intro done
  contradiction

theorem readElements_comma_ne {stop : Nat} {input more : List Token} {t : Token} {item : Expr}
    (read : readExpression stop 0 input = .ok (item, t :: more)) (comma : t.lexeme = .symbol ',')
    (fails : ∀ result, readElements stop more ≠ .ok result) (result : List Expr × List Token) :
    readElements stop input ≠ .ok result := by
  rw [readElements_eq, read]
  simp only [bind, Except.bind, if_pos comma]
  cases later : readElements stop more with
  | error fault => exact fun done => by contradiction
  | ok others => exact absurd later (fails others)

namespace Derivation

theorem readElements_of_ends (d : Derivation .elements) (ends : StatementEnds (tokens rest)) :
    readElements 0 (tokens (d.yield ++ rest)) = .ok (d.tree, tokens rest) := by
  rw [tokens_append]
  refine (d.reads 0).alone _ _ (spelling_tokens _) ends.delimited ?_
  intro follows
  cases rest with
  | nil => contradiction
  | cons lexeme rest =>
    cases Option.some.inj follows
    have separates := ends _ _ rfl
    contradiction

/-- Elements with nothing behind the last comma are read in a row only. -/
theorem readElements_trailing : (d : Derivation .elements) → StatementEnds (tokens rest) →
    ∀ result, readElements 0 (tokens (d.yield ++ .symbol ',' :: rest)) ≠ .ok result
  | element only, ends, result => by
    have read := ReadsUpTo.alone (only.reads 0) (spelling_tokens _)
      (delimited_tokens_cons ',' rest (by decide))
    rw [← tokens_append] at read
    exact readElements_comma_ne read rfl (readElements_ends ends) result
  | comma first others, ends, result => by
    have read := ReadsUpTo.alone (first.reads 0) (spelling_tokens _)
      (delimited_tokens_cons ',' (others.yield ++ .symbol ',' :: rest) (by decide))
    rw [← tokens_append] at read
    rw [yield, List.append_assoc, List.cons_append]
    exact readElements_comma_ne read rfl (readElements_trailing others ends) result

theorem elements_ne_trailing (d e : Derivation .elements) (ends : StatementEnds (tokens rest))
    (ends' : StatementEnds (tokens rest')) : d.yield ++ rest ≠ e.yield ++ .symbol ',' :: rest' := by
  intro same
  have read := d.readElements_of_ends ends
  rw [same] at read
  exact e.readElements_trailing ends' _ read

theorem row_split (d e : Derivation (.piece .row)) (ends : StatementEnds (tokens rest))
    (ends' : StatementEnds (tokens rest')) (same : d.yield ++ rest = e.yield ++ rest') :
    d.yield = e.yield := by
  cases d with
  | row d trailing =>
    cases e with
    | row e trailing' =>
      simp only [yield, List.append_assoc] at same ⊢
      cases trailing with
      | false =>
        cases trailing' with
        | false =>
          have first := d.readElements_of_ends ends
          have second := e.readElements_of_ends ends'
          simp only [Bool.false_eq_true, if_false, List.nil_append, List.append_nil] at same ⊢
          rw [same, second] at first
          obtain rfl := tokens_inj (Prod.mk.inj (Except.ok.inj first)).2
          exact List.append_cancel_right same
        | true => exact absurd same (d.elements_ne_trailing e ends ends')
      | true =>
        cases trailing' with
        | false => exact absurd same.symm (e.elements_ne_trailing d ends' ends)
        | true =>
          simp only [if_true, List.cons_append, List.nil_append] at same ⊢
          -- Readers of elements fail at both trailing commas, so it is the longer front, read
          -- alone, that rules out a comma in the middle.
          obtain ⟨middle, longer, back⟩ | ⟨middle, longer, back⟩ := List.append_eq_append_iff.mp same
          · cases middle with
            | nil => rw [longer, List.append_nil]
            | cons lexeme middle =>
              obtain ⟨rfl, rfl⟩ := List.cons.inj back
              exact absurd ((List.append_nil _).trans longer)
                (e.elements_ne_trailing d ends_nil (statementEnds_of_append ends))
          · cases middle with
            | nil => rw [longer, List.append_nil]
            | cons lexeme middle =>
              obtain ⟨rfl, rfl⟩ := List.cons.inj back
              exact absurd ((List.append_nil _).trans longer)
                (d.elements_ne_trailing e ends_nil (statementEnds_of_append ends'))

theorem sum_ne_assignment (d : Derivation .sum) (ends : StatementEnds (tokens rest))
    (target : List Char) : d.yield ++ rest ≠ .name target :: .symbol '=' :: rest' := by
  intro same
  have read := ReadsUpTo.alone (d.reads 0) (spelling_tokens _) ends.delimited
  rw [← tokens_append, same, tokens_cons, tokens_cons, readExpression_name_equals] at read
  have left := (Prod.mk.inj (Except.ok.inj read)).2
  have separates := ends _ _ left.symm
  contradiction

theorem statement_split (d e : Derivation (.piece .statement)) (ends : StatementEnds (tokens rest))
    (ends' : StatementEnds (tokens rest')) (same : d.yield ++ rest = e.yield ++ rest') :
    d.yield = e.yield := by
  cases d with
  | assignment target value =>
    cases e with
    | assignment target' value' =>
      simp only [yield, List.cons_append, List.cons.injEq, true_and] at same ⊢
      exact ⟨same.1, (ReadsUpTo.split_delimited (value.reads 0) (value'.reads 0) ends.delimited
        ends'.delimited same.2).1⟩
    | expression value' => exact absurd same.symm (value'.sum_ne_assignment ends' target)
  | expression value =>
    cases e with
    | assignment target' value' => exact absurd same (value.sum_ne_assignment ends target')
    | expression value' =>
      exact (ReadsUpTo.split_delimited (value.reads 0) (value'.reads 0) ends.delimited
        ends'.delimited same).1

theorem piece_split {p : Piece} (d e : Derivation (.piece p)) (ends : StatementEnds (tokens rest))
    (ends' : StatementEnds (tokens rest')) (same : d.yield ++ rest = e.yield ++ rest') :
    d.yield = e.yield := by
  cases p with
  | row => exact row_split d e ends ends' same
  | statement => exact statement_split d e ends ends' same

theorem tail_ends {p : Piece} (d : Derivation (.tail p)) : StatementEnds (tokens d.yield) := by
  intro t more same
  cases d with
  | finish trailing =>
    cases trailing with
    | nil => contradiction
    | cons separator separators =>
      cases same
      exact isSeparator_of_lexeme rfl
  | next separator separators first others =>
    cases same
    exact isSeparator_of_lexeme rfl

theorem piece_opens {p : Piece} (d : Derivation (.piece p)) :
    ∃ first more, d.yield = first :: more ∧ first.opens = true :=
  d.yield_opens trivial

end Derivation

theorem Separator.lexeme_not_opens (separator : Separator) : separator.lexeme.opens = false := by
  cases separator <;> rfl

theorem Separator.lexeme_injective {separator separator' : Separator}
    (same : separator.lexeme = separator'.lexeme) : separator = separator' := by
  cases separator <;> cases separator' <;> first | rfl | contradiction

/-- Nothing, or the beginning of an operand. -/
def Begins (lexemes : List Lexeme) : Prop :=
  ∀ first more, lexemes = first :: more → first.opens = true

theorem begins_append (opens : ∃ first more, lexemes = first :: more ∧ first.opens = true) :
    Begins (lexemes ++ rest) := by
  obtain ⟨first, more, rfl, opens⟩ := opens
  intro lexeme behind same
  cases same
  exact opens

theorem separators_split {separators separators' : List Separator} (begins : Begins rest)
    (begins' : Begins rest')
    (same : separators.map Separator.lexeme ++ rest = separators'.map Separator.lexeme ++ rest') :
    separators = separators' ∧ rest = rest' := by
  induction separators generalizing separators' with
  | nil =>
    cases separators' with
    | nil => exact ⟨rfl, same⟩
    | cons separator separators' =>
      have opens := begins _ _ same
      rw [separator.lexeme_not_opens] at opens
      contradiction
  | cons separator separators ih =>
    cases separators' with
    | nil =>
      have opens := begins' _ _ same.symm
      rw [separator.lexeme_not_opens] at opens
      contradiction
    | cons separator' separators' =>
      obtain ⟨head, tail⟩ := List.cons.inj same
      obtain ⟨rfl, rest_same⟩ := ih tail
      rw [Separator.lexeme_injective head]
      exact ⟨rfl, rest_same⟩

theorem separators_ne (separators separators' : List Separator)
    (opens : ∃ first more, lexemes = first :: more ∧ first.opens = true) :
    separators.map Separator.lexeme ≠ separators'.map Separator.lexeme ++ (lexemes ++ rest) := by
  intro same
  have begins : Begins [] := fun first more same => by contradiction
  obtain ⟨_, empty⟩ := separators_split begins (begins_append opens)
    ((List.append_nil _).trans same)
  obtain ⟨first, more, rfl, _⟩ := opens
  contradiction

theorem separators_injective {separators separators' : List Separator}
    (same : separators.map Separator.lexeme = separators'.map Separator.lexeme) :
    separators = separators' := by
  have begins : Begins [] := fun first more same => by contradiction
  exact (separators_split begins begins (congrArg (· ++ []) same)).1

end Pieces

namespace Derivation

theorem split_first {p : Piece} {first first' : Derivation (.piece p)}
    {others others' : Derivation (.tail p)}
    (ih : ∀ e : Derivation (.piece p), first.yield = e.yield → first = e)
    (others_ih : ∀ e : Derivation (.tail p), others.yield = e.yield → others = e)
    (same : first.yield ++ others.yield = first'.yield ++ others'.yield) :
    first = first' ∧ others = others' := by
  have piece := piece_split first first' others.tail_ends others'.tail_ends same
  rw [piece] at same
  exact ⟨ih _ piece, others_ih _ (List.append_cancel_left same)⟩

theorem row_parts {elements elements' : Derivation .elements} {trailing trailing' : Bool}
    (same : (row elements trailing).yield = (row elements' trailing').yield) :
    trailing = trailing' ∧ elements.yield = elements'.yield := by
  cases trailing with
  | false =>
    cases trailing' with
    | false => exact ⟨rfl, List.append_cancel_right same⟩
    | true => exact absurd same (elements.elements_ne_trailing elements' ends_nil ends_nil)
  | true =>
    cases trailing' with
    | false => exact absurd same.symm (elements'.elements_ne_trailing elements ends_nil ends_nil)
    | true => exact ⟨rfl, List.append_cancel_right same⟩

/-- Two derivations that spell the same are the same. -/
theorem eq_of_yield_eq {N : Nonterminal} (d : Derivation N) :
    ∀ e : Derivation N, d.yield = e.yield → d = e := by
  induction d with
  | term only ih =>
    intro e same
    cases e with
    | term only' => exact congrArg term (ih only' same)
    | add left' operator' additive' right' =>
      exact absurd same (only.product_ne_sum left' operator' additive' _)
  | add left operator additive right left_ih right_ih =>
    intro e same
    cases e with
    | term only' => exact absurd same.symm (only'.product_ne_sum left operator additive _)
    | add left' operator' additive' right' =>
      obtain ⟨rfl, lefts, rights⟩ := add_split same
      rw [left_ih _ lefts, right_ih _ rights]
  | factor only ih =>
    intro e same
    cases e with
    | factor only' => exact congrArg factor (ih only' same)
    | multiply left' operator' multiplicative' right' =>
      exact absurd same (only.power_ne_product left' operator' multiplicative' _)
  | multiply left operator multiplicative right left_ih right_ih =>
    intro e same
    cases e with
    | factor only' =>
      exact absurd same.symm (only'.power_ne_product left operator multiplicative _)
    | multiply left' operator' multiplicative' right' =>
      obtain ⟨rfl, lefts, rights⟩ := multiply_split same
      rw [left_ih _ lefts, right_ih _ rights]
  | base only ih =>
    intro e same
    cases e with
    | base only' => exact congrArg base (ih only' same)
    | raise operand' exponent' => exact absurd same (only.marked_ne_power operand' _)
  | raise operand exponent operand_ih exponent_ih =>
    intro e same
    cases e with
    | base only' => exact absurd same.symm (only'.marked_ne_power operand _)
    | raise operand' exponent' =>
      obtain ⟨operands, exponents⟩ := raise_split same
      rw [operand_ih _ operands, exponent_ih _ exponents]
  | bare only ih =>
    intro e same
    cases e with
    | bare only' => exact congrArg bare (ih only' same)
    | mark operand' operator' trailing' =>
      exact absurd same (only.signed_ne_marked operand' operator' [])
  | mark operand operator trailing ih =>
    intro e same
    cases e with
    | bare only' => exact absurd same.symm (only'.signed_ne_marked operand operator [])
    | mark operand' operator' trailing' =>
      obtain ⟨operands, symbols⟩ := List.append_inj' same rfl
      simp only [List.cons.injEq, Lexeme.symbol.injEq, and_true] at symbols
      obtain rfl := UnaryOperator.symbol_injective symbols
      rw [ih _ operands]
  | unsigned only ih =>
    intro e same
    cases e with
    | unsigned only' => exact congrArg unsigned (ih only' same)
    | sign operator' leading' operand' => exact absurd same (only.atom_ne_signed leading' _)
  | sign operator leading operand ih =>
    intro e same
    cases e with
    | unsigned only' => exact absurd same.symm (only'.atom_ne_signed leading _)
    | sign operator' leading' operand' =>
      obtain ⟨symbols, operands⟩ := List.cons.inj same
      obtain rfl := UnaryOperator.symbol_injective (Lexeme.symbol.inj symbols)
      rw [ih _ operands]
  | number text | name text =>
    intro e same
    cases e <;> simp_all [yield]
  | call function =>
    intro e same
    cases e <;> simp only [yield, List.cons.injEq, reduceCtorEq, false_and, and_false] at same
    case call function' => rw [Lexeme.name.inj same.1]
    case callWith function' arguments' => exact absurd same.2.2 arguments'.closing_ne
  | callWith function arguments ih =>
    intro e same
    cases e <;> simp only [yield, List.cons.injEq, reduceCtorEq, false_and, and_false] at same
    case call function' => exact absurd same.2.2.symm arguments.closing_ne
    case callWith function' arguments' =>
      rw [Lexeme.name.inj same.1, ih _ (List.append_cancel_right same.2.2)]
  | parentheses inner ih =>
    intro e same
    cases e <;> simp only [yield, List.cons.injEq, reduceCtorEq, false_and] at same
    case parentheses inner' => rw [ih _ (List.append_cancel_right same.2)]
    case matrix => cases same.1
  | matrix rows ih =>
    intro e same
    cases e <;> simp only [yield, List.cons.injEq, reduceCtorEq, false_and] at same
    case parentheses => cases same.1
    case matrix rows' => rw [ih _ (List.append_cancel_right same.2)]
  | element only ih =>
    intro e same
    cases e with
    | element only' => exact congrArg element (ih only' same)
    | comma first' others' => exact absurd same (only.sum_ne_comma first' _)
  | comma first others first_ih ih =>
    intro e same
    cases e with
    | element only' => exact absurd same.symm (only'.sum_ne_comma first _)
    | comma first' others' =>
      obtain ⟨firsts, behind⟩ := comma_split same
      rw [first_ih _ firsts, ih _ behind]
  | row elements trailing ih =>
    intro e same
    cases e with
    | row elements' trailing' =>
      obtain ⟨rfl, inside⟩ := row_parts same
      rw [ih _ inside]
  | assignment target value ih =>
    intro e same
    cases e with
    | assignment target' value' =>
      obtain ⟨names, values⟩ := List.cons.inj same
      rw [Lexeme.name.inj names, ih _ (List.cons.inj values).2]
    | expression value' =>
      exact absurd ((List.append_nil _).trans same.symm) (value'.sum_ne_assignment ends_nil target)
  | expression value ih =>
    intro e same
    cases e with
    | assignment target' value' =>
      exact absurd ((List.append_nil _).trans same) (value.sum_ne_assignment ends_nil target')
    | expression value' => exact congrArg expression (ih _ same)
  | blank separators =>
    intro e same
    cases e with
    | blank separators' => exact congrArg blank (separators_injective same)
    | filled leading' first' others' => exact absurd same (separators_ne _ _ first'.piece_opens)
  | filled leading first others first_ih ih =>
    intro e same
    cases e with
    | blank separators' => exact absurd same.symm (separators_ne _ _ first.piece_opens)
    | filled leading' first' others' =>
      obtain ⟨rfl, behind⟩ := separators_split (begins_append first.piece_opens)
        (begins_append first'.piece_opens) same
      obtain ⟨rfl, rfl⟩ := split_first first_ih ih behind
      rfl
  | finish trailing =>
    intro e same
    cases e with
    | finish trailing' => exact congrArg finish (separators_injective same)
    | next separator' separators' first' others' =>
      exact absurd same (separators_ne _ (separator' :: separators') first'.piece_opens)
  | next separator separators first others first_ih ih =>
    intro e same
    cases e with
    | finish trailing' =>
      exact absurd same.symm (separators_ne _ (separator :: separators) first.piece_opens)
    | next separator' separators' first' others' =>
      obtain ⟨head, tail⟩ := List.cons.inj same
      obtain rfl := Separator.lexeme_injective head
      obtain ⟨rfl, behind⟩ := separators_split (begins_append first.piece_opens)
        (begins_append first'.piece_opens) tail
      obtain ⟨rfl, rfl⟩ := split_first first_ih ih behind
      rfl

end Derivation

end MatrixCalculator.Language
