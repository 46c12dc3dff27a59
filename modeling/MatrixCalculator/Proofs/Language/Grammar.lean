import MatrixCalculator.Language.Parser

/-! The grammar of the calculator language. A derivation spells a list of lexemes and stands for
a tree; brackets around an expression are spelled and leave no trace in the tree. Programs and
the insides of matrix literals have one shape: pieces with separators between and around them. -/
namespace MatrixCalculator.Language

inductive Separator
  | semicolon | lineBreak
deriving DecidableEq

def Separator.lexeme : Separator → Lexeme
  | .semicolon => .symbol ';'
  | .lineBreak => .lineBreak

/-- What separators stand between. -/
inductive Piece
  | row | statement

abbrev Piece.Tree : Piece → Type
  | .row => List Expr
  | .statement => Statement

inductive Nonterminal
  | sum | product | power | marked | signed | atom | elements
  | piece (p : Piece)
  | block (p : Piece)
  /-- What follows the first piece of a block. -/
  | tail (p : Piece)

abbrev Nonterminal.Tree : Nonterminal → Type
  | .sum | .product | .power | .marked | .signed | .atom => Expr
  | .elements => List Expr
  | .piece p => p.Tree
  | .block p | .tail p => List p.Tree

inductive Derivation : Nonterminal → Type
  | term (only : Derivation .product) : Derivation .sum
  | add (left : Derivation .sum) (operator : BinaryOperator)
      (additive : operator ∈ [.add, .subtract]) (right : Derivation .product) : Derivation .sum
  | factor (only : Derivation .power) : Derivation .product
  | multiply (left : Derivation .product) (operator : BinaryOperator)
      (multiplicative : operator ∈ [.multiply, .divide, .leftDivide])
      (right : Derivation .power) : Derivation .product
  | base (only : Derivation .marked) : Derivation .power
  | raise (operand : Derivation .marked) (exponent : Derivation .power) : Derivation .power
  | bare (only : Derivation .signed) : Derivation .marked
  | mark (operand : Derivation .marked) (operator : UnaryOperator)
      (trailing : operator ∈ [.factorial, .transpose]) : Derivation .marked
  | unsigned (only : Derivation .atom) : Derivation .signed
  | sign (operator : UnaryOperator) (leading : operator ∈ [.plus, .minus])
      (operand : Derivation .signed) : Derivation .signed
  | number (text : List Char) : Derivation .atom
  | name (text : List Char) : Derivation .atom
  | call (function : List Char) : Derivation .atom
  | callWith (function : List Char) (arguments : Derivation .elements) : Derivation .atom
  | parentheses (inner : Derivation .sum) : Derivation .atom
  | matrix (rows : Derivation (.block .row)) : Derivation .atom
  | element (only : Derivation .sum) : Derivation .elements
  | comma (first : Derivation .sum) (others : Derivation .elements) : Derivation .elements
  | row (elements : Derivation .elements) (trailing : Bool) : Derivation (.piece .row)
  | assignment (target : List Char) (value : Derivation .sum) : Derivation (.piece .statement)
  | expression (value : Derivation .sum) : Derivation (.piece .statement)
  | blank {p : Piece} (separators : List Separator) : Derivation (.block p)
  | filled {p : Piece} (leading : List Separator) (first : Derivation (.piece p))
      (others : Derivation (.tail p)) : Derivation (.block p)
  | finish {p : Piece} (trailing : List Separator) : Derivation (.tail p)
  | next {p : Piece} (separator : Separator) (separators : List Separator)
      (first : Derivation (.piece p)) (others : Derivation (.tail p)) : Derivation (.tail p)

namespace Derivation

variable {N : Nonterminal}

def yield : {N : Nonterminal} → Derivation N → List Lexeme
  | _, term only => only.yield
  | _, add left operator _ right => left.yield ++ .symbol operator.symbol :: right.yield
  | _, factor only => only.yield
  | _, multiply left operator _ right => left.yield ++ .symbol operator.symbol :: right.yield
  | _, base only => only.yield
  | _, raise operand exponent => operand.yield ++ .symbol '^' :: exponent.yield
  | _, bare only => only.yield
  | _, mark operand operator _ => operand.yield ++ [.symbol operator.symbol]
  | _, unsigned only => only.yield
  | _, sign operator _ operand => .symbol operator.symbol :: operand.yield
  | _, number text => [.number text]
  | _, name text => [.name text]
  | _, call function => [.name function, .symbol '(', .symbol ')']
  | _, callWith function arguments =>
    .name function :: .symbol '(' :: (arguments.yield ++ [.symbol ')'])
  | _, parentheses inner => .symbol '(' :: (inner.yield ++ [.symbol ')'])
  | _, matrix rows => .symbol '[' :: (rows.yield ++ [.symbol ']'])
  | _, element only => only.yield
  | _, comma first others => first.yield ++ .symbol ',' :: others.yield
  | _, row elements trailing => elements.yield ++ if trailing then [.symbol ','] else []
  | _, assignment target value => .name target :: .symbol '=' :: value.yield
  | _, expression value => value.yield
  | _, blank separators => separators.map Separator.lexeme
  | _, filled leading first others =>
    leading.map Separator.lexeme ++ (first.yield ++ others.yield)
  | _, finish trailing => trailing.map Separator.lexeme
  | _, next separator separators first others =>
    separator.lexeme :: (separators.map Separator.lexeme ++ (first.yield ++ others.yield))

def tree : {N : Nonterminal} → Derivation N → N.Tree
  | _, term only => only.tree
  | _, add left operator _ right => .binary operator left.tree right.tree
  | _, factor only => only.tree
  | _, multiply left operator _ right => .binary operator left.tree right.tree
  | _, base only => only.tree
  | _, raise operand exponent => .binary .power operand.tree exponent.tree
  | _, bare only => only.tree
  | _, mark operand operator _ => .unary operator operand.tree
  | _, unsigned only => only.tree
  | _, sign operator _ operand => .unary operator operand.tree
  | _, number text => .number (Decimal.readDouble text)
  | _, name text => .variable (String.ofList text)
  | _, call function => .call (String.ofList function) []
  | _, callWith function arguments => .call (String.ofList function) arguments.tree
  | _, parentheses inner => inner.tree
  | _, matrix rows => .matrix rows.tree
  | _, element only => [only.tree]
  | _, comma first others => first.tree :: others.tree
  | _, row elements _ => elements.tree
  | _, assignment target value => ⟨value.tree, some (String.ofList target)⟩
  | _, expression value => ⟨value.tree, none⟩
  | _, blank _ => []
  | _, filled _ first others => first.tree :: others.tree
  | _, finish _ => []
  | _, next _ _ first others => first.tree :: others.tree

end Derivation

/-- What an operand may begin with. -/
def Lexeme.opens : Lexeme → Bool
  | .number _ | .name _ => true
  | .symbol c => c ∈ ['+', '-', '(', '[']
  | .lineBreak => false

/-- The nonterminals that spell at least one lexeme, the first of an operand. -/
def Nonterminal.Opening : Nonterminal → Prop
  | .block _ | .tail _ => False
  | _ => True

theorem opens_of_leading {operator : UnaryOperator} (leading : operator ∈ [.plus, .minus]) :
    (Lexeme.symbol operator.symbol).opens = true := by
  revert leading
  cases operator <;> decide

theorem Derivation.yield_opens {N : Nonterminal} (d : Derivation N) (opening : N.Opening) :
    ∃ first more, d.yield = first :: more ∧ first.opens = true := by
  induction d with
  | term only ih | factor only ih | base only ih | bare only ih | unsigned only ih
  | element only ih | expression value ih => exact ih trivial
  | add left operator _ right ih _ | multiply left operator _ right ih _
  | raise operand exponent ih _ | mark operand operator _ ih | comma first others ih _
  | row elements trailing ih =>
    obtain ⟨first, more, spelled, opens⟩ := ih trivial
    exact ⟨first, _, by rw [yield, spelled, List.cons_append], opens⟩
  | sign operator leading operand _ => exact ⟨_, _, rfl, opens_of_leading leading⟩
  | number text | name text | call function | callWith function arguments
  | parentheses inner | matrix rows | assignment target value => exact ⟨_, _, rfl, rfl⟩
  | blank separators | filled leading first others | finish trailing
  | next separator separators first others => exact opening.elim

/-- An expression in which no matrix literal has an empty row. -/
inductive Expr.RowsFilled : Expr → Prop
  | number (x : Float) : RowsFilled (.number x)
  | variable (name : String) : RowsFilled (.variable name)
  | matrix {rows : List (List Expr)} (filled : ∀ row ∈ rows, row ≠ [])
      (elements : ∀ row ∈ rows, ∀ e ∈ row, RowsFilled e) : RowsFilled (.matrix rows)
  | call {function : String} {arguments : List Expr}
      (filled : ∀ e ∈ arguments, RowsFilled e) : RowsFilled (.call function arguments)
  | unary {operator : UnaryOperator} {operand : Expr} (filled : RowsFilled operand) :
    RowsFilled (.unary operator operand)
  | binary {operator : BinaryOperator} {left right : Expr} (leftFilled : RowsFilled left)
      (rightFilled : RowsFilled right) : RowsFilled (.binary operator left right)

def Nonterminal.Filled : (N : Nonterminal) → N.Tree → Prop
  | .sum, e | .product, e | .power, e | .marked, e | .signed, e | .atom, e => Expr.RowsFilled e
  | .elements, es | .piece .row, es => es ≠ [] ∧ ∀ e ∈ es, Expr.RowsFilled e
  | .piece .statement, s => Expr.RowsFilled s.expr
  | .block .row, rows | .tail .row, rows =>
    ∀ row ∈ rows, row ≠ [] ∧ ∀ e ∈ row, Expr.RowsFilled e
  | .block .statement, ss | .tail .statement, ss => ∀ s ∈ ss, Expr.RowsFilled s.expr

theorem Derivation.rowsFilled {N : Nonterminal} (d : Derivation N) : N.Filled d.tree := by
  induction d with
  | term only ih | factor only ih | base only ih | bare only ih | unsigned only ih
  | parentheses only ih | row elements trailing ih | assignment target value ih
  | expression value ih => exact ih
  | add left operator _ right left_ih right_ih
  | multiply left operator _ right left_ih right_ih
  | raise operand exponent left_ih right_ih => exact .binary left_ih right_ih
  | mark operand operator _ ih | sign operator _ operand ih => exact .unary ih
  | number text => exact .number _
  | name text => exact .variable _
  | call function => exact .call (by simp)
  | callWith function arguments ih => exact .call ih.2
  | matrix rows ih =>
    exact .matrix (fun row member => (ih row member).1) (fun row member => (ih row member).2)
  | element only ih => exact ⟨List.cons_ne_nil _ _, by simpa [tree, Nonterminal.Filled] using ih⟩
  | comma first others first_ih ih =>
    exact ⟨List.cons_ne_nil _ _, List.forall_mem_cons.mpr ⟨first_ih, ih.2⟩⟩
  | @blank p _ => cases p <;> exact fun _ member => absurd member List.not_mem_nil
  | @finish p _ => cases p <;> exact fun _ member => absurd member List.not_mem_nil
  | @filled p _ first others first_ih ih =>
    cases p <;> exact List.forall_mem_cons.mpr ⟨first_ih, ih⟩
  | @next p _ _ first others first_ih ih =>
    cases p <;> exact List.forall_mem_cons.mpr ⟨first_ih, ih⟩

end MatrixCalculator.Language
