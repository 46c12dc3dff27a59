import MatrixCalculator.Proofs.Language.Exactness

/-! The names that a program reads. They are those that its source mentions elsewhere than in front
of the parenthesis of a call or the equals sign of an assignment, in the order of the source. -/
namespace MatrixCalculator.Language

namespace Expr

mutual

/-- The names of the variables that an expression reads, from left to right. Functions have names of
their own. -/
def reads : Expr → List String
  | .number _ => []
  | .variable name => [name]
  | .matrix rows => readsRows rows
  | .call _ arguments => readsAll arguments
  | .unary _ operand => reads operand
  | .binary _ left right => reads left ++ reads right

def readsAll : List Expr → List String
  | [] => []
  | e :: rest => reads e ++ readsAll rest

def readsRows : List (List Expr) → List String
  | [] => []
  | row :: rest => readsAll row ++ readsRows rest

end

end Expr

/-- Whether a name in front of the lexemes is called or assigned to. -/
def takesName : List Lexeme → Bool
  | .symbol c :: _ => c == '(' || c == '='
  | _ => false

/-- The names in a list of lexemes, without those that are called or assigned to. -/
def mentioned : List Lexeme → List String
  | [] => []
  | .name text :: rest =>
    if takesName rest then mentioned rest else String.ofList text :: mentioned rest
  | _ :: rest => mentioned rest

def mentionedIn (source : String) : List String :=
  match tokenize source.toList with
  | .ok stream => mentioned (spelling stream.tokens)
  | .error _ => []

variable {rest : List Lexeme}

@[simp] theorem mentioned_symbol (c : Char) (rest : List Lexeme) :
    mentioned (.symbol c :: rest) = mentioned rest :=
  rfl

theorem mentioned_taken (text : List Char) (taken : takesName rest = true) :
    mentioned (.name text :: rest) = mentioned rest :=
  if_pos taken

theorem mentioned_name (text : List Char) (free : takesName rest = false) :
    mentioned (.name text :: rest) = String.ofList text :: mentioned rest :=
  if_neg (Bool.eq_false_iff.mp free)

@[simp] theorem mentioned_separator (separator : Separator) (rest : List Lexeme) :
    mentioned (separator.lexeme :: rest) = mentioned rest := by
  cases separator <;> rfl

@[simp] theorem mentioned_separators (separators : List Separator) (rest : List Lexeme) :
    mentioned (separators.map Separator.lexeme ++ rest) = mentioned rest := by
  induction separators with
  | nil => rfl
  | cons separator others ih => rw [List.map_cons, List.cons_append, mentioned_separator, ih]

theorem takesName_separator (separator : Separator) (rest : List Lexeme) :
    takesName (separator.lexeme :: rest) = false := by
  cases separator <;> rfl

theorem takesName_binary (operator : BinaryOperator) (rest : List Lexeme) :
    takesName (.symbol operator.symbol :: rest) = false := by
  cases operator <;> rfl

theorem takesName_unary (operator : UnaryOperator) (rest : List Lexeme) :
    takesName (.symbol operator.symbol :: rest) = false := by
  cases operator <;> rfl

/-- A piece is followed by a separator, or by what follows the whole block. -/
theorem takesName_tail {p : Piece} (others : Derivation (.tail p)) (free : takesName rest = false) :
    takesName (others.yield ++ rest) = false := by
  cases others with
  | finish trailing =>
    cases trailing with
    | nil => exact free
    | cons separator _ => exact takesName_separator separator _
  | next separator separators first others => exact takesName_separator separator _

def Nonterminal.reads : (N : Nonterminal) → N.Tree → List String
  | .sum, e | .product, e | .power, e | .marked, e | .signed, e | .atom, e => Expr.reads e
  | .elements, es | .piece .row, es => Expr.readsAll es
  | .piece .statement, s => Expr.reads s.expr
  | .block .row, rows | .tail .row, rows => Expr.readsRows rows
  | .block .statement, ss | .tail .statement, ss => ss.flatMap fun s => s.expr.reads

/-- A derivation mentions the names that its tree reads. What follows decides whether its last name is
taken. -/
theorem Derivation.mentioned_yield {N : Nonterminal} (d : Derivation N)
    (free : takesName rest = false) :
    mentioned (d.yield ++ rest) = N.reads d.tree ++ mentioned rest := by
  -- What follows a part is known from its place: an operator, a comma, a closing bracket or a
  -- separator, none of which takes a name, or else what follows the whole.
  induction d generalizing rest with
  | term only ih | factor only ih | base only ih | bare only ih | unsigned only ih
  | expression only ih => exact ih free
  | add left operator _ right left_ih right_ih
  | multiply left operator _ right left_ih right_ih =>
    rw [yield, List.append_assoc, List.cons_append, left_ih (takesName_binary operator _),
      mentioned_symbol, right_ih free, ← List.append_assoc]
    rfl
  | raise operand exponent operand_ih exponent_ih =>
    rw [yield, List.append_assoc, List.cons_append, operand_ih rfl, mentioned_symbol,
      exponent_ih free, ← List.append_assoc]
    rfl
  | mark operand operator _ ih =>
    rw [yield, List.append_assoc, List.cons_append, ih (takesName_unary operator _),
      mentioned_symbol]
    rfl
  | sign operator _ operand ih =>
    rw [yield, List.cons_append, mentioned_symbol, ih free]
    rfl
  | number text => rfl
  | name text => exact mentioned_name text free
  | call function => exact mentioned_taken function rfl
  | callWith function arguments ih =>
    rw [yield, List.cons_append, mentioned_taken function rfl, List.cons_append, mentioned_symbol,
      List.append_assoc, ih rfl]
    rfl
  | parentheses inner ih | matrix inner ih =>
    rw [yield, List.cons_append, mentioned_symbol, List.append_assoc, ih rfl]
    rfl
  | element only ih =>
    rw [yield, ih free]
    simp [tree, Nonterminal.reads, Expr.readsAll]
  | comma first others first_ih others_ih =>
    rw [yield, List.append_assoc, List.cons_append, first_ih rfl, mentioned_symbol,
      others_ih free, ← List.append_assoc]
    rfl
  | row elements trailing ih =>
    cases trailing with
    | false =>
      rw [yield, if_neg Bool.false_ne_true, List.append_nil]
      exact ih free
    | true =>
      rw [yield, if_pos rfl, List.append_assoc]
      exact ih rfl
  | assignment target value ih =>
    rw [yield, List.cons_append, mentioned_taken target rfl, List.cons_append, mentioned_symbol]
    exact ih free
  | @blank p separators =>
    rw [yield, mentioned_separators]
    cases p <;> rfl
  | @finish p trailing =>
    rw [yield, mentioned_separators]
    cases p <;> rfl
  | @filled p leading first others first_ih others_ih =>
    rw [yield, List.append_assoc, mentioned_separators, List.append_assoc,
      first_ih (takesName_tail others free), others_ih free, ← List.append_assoc]
    cases p <;> rfl
  | @next p separator separators first others first_ih others_ih =>
    rw [yield, List.cons_append, mentioned_separator, List.append_assoc, mentioned_separators,
      List.append_assoc, first_ih (takesName_tail others free), others_ih free,
      ← List.append_assoc]
    cases p <;> rfl

/-- A program reads the names that its source mentions as variables, in their order there. -/
theorem mentionedIn_of_parse {source : String} {ss : List Statement}
    (parsed : parse source = .ok ss) : mentionedIn source = ss.flatMap fun s => s.expr.reads := by
  obtain ⟨stream, tokenized, d, spelled, -, rfl⟩ := (parse_eq_ok_iff source ss).mp parsed
  have names := d.mentioned_yield (show takesName [] = false from rfl)
  rw [List.append_nil, spelled] at names
  rw [mentionedIn, tokenized]
  exact names.trans (List.append_nil _)

end MatrixCalculator.Language
