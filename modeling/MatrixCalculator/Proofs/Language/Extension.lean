import MatrixCalculator.Proofs.Language.Reading

/-! What an operand takes in: the operators behind it, up to one that it leaves to others. -/
namespace MatrixCalculator.Language

variable {stop least bound : Nat} {first second item : Expr} {t : Token}
  {input more rest : List Token}

@[simp] theorem binaryOperator?_symbol (operator : BinaryOperator) :
    binaryOperator? operator.symbol = some operator := by
  cases operator <;> rfl

@[simp] theorem trailingOperator?_symbol (operator : BinaryOperator) :
    trailingOperator? operator.symbol = none := by
  cases operator <;> rfl

theorem trailingOperator?_eq_some_iff {c : Char} {operator : UnaryOperator} :
    trailingOperator? c = some operator ↔
      c = operator.symbol ∧ operator ∈ [.factorial, .transpose] := by
  constructor
  · unfold trailingOperator?
    split <;> rintro ⟨⟩ <;> exact ⟨rfl, by decide⟩
  · rintro ⟨rfl, trailing⟩
    revert trailing
    cases operator <;> decide

theorem leadingOperator?_eq_some_iff {c : Char} {operator : UnaryOperator} :
    leadingOperator? c = some operator ↔
      c = operator.symbol ∧ operator ∈ [.plus, .minus] := by
  constructor
  · unfold leadingOperator?
    split <;> rintro ⟨⟩ <;> exact ⟨rfl, by decide⟩
  · rintro ⟨rfl, leading⟩
    revert leading
    cases operator <;> decide

theorem eq_symbol_of_binaryOperator? {c : Char} {operator : BinaryOperator}
    (found : binaryOperator? c = some operator) : c = operator.symbol := by
  revert found
  unfold binaryOperator?
  split <;> rintro ⟨⟩ <;> rfl

theorem BinaryOperator.powers_of_additive {operator : BinaryOperator}
    (additive : operator ∈ [.add, .subtract]) :
    operator.leftPower = 10 ∧ operator.rightPower = 11 := by
  revert additive
  cases operator <;> decide

theorem BinaryOperator.powers_of_multiplicative {operator : BinaryOperator}
    (multiplicative : operator ∈ [.multiply, .divide, .leftDivide]) :
    operator.leftPower = 20 ∧ operator.rightPower = 21 := by
  revert multiplicative
  cases operator <;> decide

def nextLexeme? (input : List Token) : Option Lexeme :=
  input.head?.map (·.lexeme)

@[simp] theorem nextLexeme?_cons (t : Token) (rest : List Token) : nextLexeme? (t :: rest) = some t.lexeme :=
  rfl

/-- No operator follows that holds its left operand at least as strongly as `bound`. -/
def Stops (bound : Nat) (input : List Token) : Prop :=
  ∀ c, nextLexeme? input = some (.symbol c) →
    trailingOperator? c = none ∧
      ∀ operator, binaryOperator? c = some operator → operator.leftPower < bound

theorem Stops.mono {higher : Nat} (stops : Stops bound input) (le : bound ≤ higher) :
    Stops higher input :=
  fun c follows => ⟨(stops c follows).1, fun operator found =>
    Nat.lt_of_lt_of_le ((stops c follows).2 operator found) le⟩

theorem stops_cons_binary {operator : BinaryOperator} (spelled : t.lexeme = .symbol operator.symbol)
    (weaker : operator.leftPower < bound) : Stops bound (t :: rest) := by
  intro c follows
  rw [nextLexeme?_cons, spelled, Option.some.injEq, Lexeme.symbol.injEq] at follows
  subst follows
  refine ⟨trailingOperator?_symbol operator, fun other found => ?_⟩
  rw [binaryOperator?_symbol] at found
  exact Option.some.inj found ▸ weaker

theorem Stops.lt_of_binary {operator : BinaryOperator} (stops : Stops bound (t :: rest))
    (spelled : t.lexeme = .symbol operator.symbol) : operator.leftPower < bound :=
  (stops operator.symbol (by rw [nextLexeme?_cons, spelled])).2 operator (binaryOperator?_symbol operator)

theorem Stops.not_trailing {operator : UnaryOperator} (stops : Stops bound (t :: rest))
    (spelled : t.lexeme = .symbol operator.symbol)
    (trailing : operator ∈ [.factorial, .transpose]) : False := by
  have none := (stops operator.symbol (by rw [nextLexeme?_cons, spelled])).1
  rw [trailingOperator?_eq_some_iff.mpr ⟨rfl, trailing⟩] at none
  contradiction

theorem readExtension_stops (stops : Stops least input) :
    readExtension stop least first input = .ok (first, input) := by
  rw [readExtension_eq]
  cases input with
  | nil => rfl
  | cons t rest =>
    dsimp only
    split
    · next c spelled =>
      obtain ⟨none, weaker⟩ := stops c (by rw [nextLexeme?_cons, spelled])
      rw [none]
      cases found : binaryOperator? c with
      | none => rfl
      | some operator => exact if_pos (weaker operator found)
    · rfl

theorem readExtension_trailing {operator : UnaryOperator}
    (spelled : t.lexeme = .symbol operator.symbol)
    (trailing : operator ∈ [.factorial, .transpose]) :
    readExtension stop least first (t :: rest) =
      readExtension stop least (.unary operator first) rest := by
  rw [readExtension_eq]
  simp only [spelled, trailingOperator?_eq_some_iff.mpr ⟨rfl, trailing⟩]

/-- An operator that is held strongly enough takes the right operand which stands in front of
the rest. -/
theorem readExtension_binary {operator : BinaryOperator}
    (spelled : t.lexeme = .symbol operator.symbol) (held : least ≤ operator.leftPower)
    (right : readExpression stop operator.rightPower more =
      readExtension stop operator.rightPower second rest)
    (stops : Stops operator.rightPower rest) :
    readExtension stop least first (t :: more) =
      readExtension stop least (.binary operator first second) rest := by
  rw [readExtension_eq]
  simp only [spelled, trailingOperator?_symbol, binaryOperator?_symbol,
    if_neg (Nat.not_lt.mpr held), right, readExtension_stops stops]
  rfl

inductive Extended (stop least : Nat) (first : Expr) : List Token → Expr → List Token → Prop
  | done {input : List Token} (stops : Stops least input) : Extended stop least first input first input
  | trailing {t : Token} {more rest : List Token} {operator : UnaryOperator} {item : Expr}
      (spelled : t.lexeme = .symbol operator.symbol)
      (trailing : operator ∈ [.factorial, .transpose])
      (later : readExtension stop least (.unary operator first) more = .ok (item, rest)) :
      Extended stop least first (t :: more) item rest
  | binary {t : Token} {more left rest : List Token} {operator : BinaryOperator}
      {second item : Expr} (spelled : t.lexeme = .symbol operator.symbol)
      (held : least ≤ operator.leftPower)
      (right : readExpression stop operator.rightPower more = .ok (second, left))
      (later : readExtension stop least (.binary operator first second) left = .ok (item, rest)) :
      Extended stop least first (t :: more) item rest

theorem extended_of_readExtension (done : readExtension stop least first input = .ok (item, rest)) :
    Extended stop least first input item rest := by
  rw [readExtension_eq] at done
  cases input with
  | nil =>
    cases done
    exact .done (fun c follows => by contradiction)
  | cons t more =>
    have halts (absent : ∀ c, t.lexeme = .symbol c →
        trailingOperator? c = none ∧ ∀ operator, binaryOperator? c = some operator →
          operator.leftPower < least) : Stops least (t :: more) := by
      intro c follows
      exact absent c (Option.some.inj follows)
    dsimp only at done
    split at done
    · next c spelled =>
      split at done
      · next operator found =>
        obtain ⟨rfl, trailing⟩ := trailingOperator?_eq_some_iff.mp found
        exact .trailing spelled trailing done
      · next operator plain found =>
        obtain rfl := eq_symbol_of_binaryOperator? found
        split at done
        · next weaker =>
          cases done
          exact .done (stops_cons_binary spelled weaker)
        · next held =>
          obtain ⟨⟨second, left⟩, right, later⟩ := exists_of_bind_eq_ok done
          exact .binary spelled (Nat.not_lt.mp held) right later
      · next plain absent =>
        cases done
        refine .done (halts fun other same => ?_)
        cases spelled.symm.trans same
        exact ⟨plain, fun operator found => by rw [absent] at found; contradiction⟩
    · next other =>
      cases done
      exact .done (halts fun c spelled => absurd spelled (other c))

end MatrixCalculator.Language
