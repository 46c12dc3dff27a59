import MatrixCalculator.Proofs.Language.Soundness
import MatrixCalculator.Proofs.Language.Unambiguity

/-! The parser accepts exactly the programs of the grammar, and returns the trees of their only
derivations. -/
namespace MatrixCalculator.Language

/-- The tree of the only derivation that spells the lexemes. -/
def Nonterminal.Stands (N : Nonterminal) (lexemes : List Lexeme) (tree : N.Tree) : Prop :=
  ∃ d : Derivation N, d.yield = lexemes ∧ (∀ e : Derivation N, e.yield = lexemes → e = d) ∧
    d.tree = tree

theorem stands_iff {N : Nonterminal} {lexemes : List Lexeme} {tree : N.Tree} :
    N.Stands lexemes tree ↔ ∃ d : Derivation N, d.yield = lexemes ∧ d.tree = tree := by
  constructor
  · rintro ⟨d, spelled, _, means⟩
    exact ⟨d, spelled, means⟩
  · rintro ⟨d, spelled, means⟩
    exact ⟨d, spelled, fun e same => e.eq_of_yield_eq d (same.trans spelled.symm), means⟩

theorem statements_eq_ok_iff {stop : Nat} {input : List Token} {ss : List Statement} :
    statements stop input = .ok ss ↔ (Nonterminal.block .statement).Stands (spelling input) ss := by
  rw [stands_iff]
  constructor
  · exact statements_sound
  · rintro ⟨d, spelled, rfl⟩
    exact (d.reads stop) input spelled.symm

theorem readExpression_eq_ok_iff {stop : Nat} {input : List Token} {e : Expr} :
    readExpression stop 0 input = .ok (e, []) ↔ Nonterminal.sum.Stands (spelling input) e := by
  rw [stands_iff]
  constructor
  · intro done
    obtain ⟨d, spelled, means⟩ := (sound stop input).sum done
    exact ⟨d, by rw [spelled]; exact (List.append_nil _).symm, means⟩
  · rintro ⟨d, spelled, rfl⟩
    have delimited : Delimited [] := fun c follows => by contradiction
    simpa using ReadsUpTo.alone (d.reads stop) spelled.symm delimited

theorem parse_eq_ok_iff (source : String) (ss : List Statement) :
    parse source = .ok ss ↔ ∃ stream, tokenize source.toList = .ok stream ∧
      (Nonterminal.block .statement).Stands (spelling stream.tokens) ss := by
  unfold parse
  cases tokenize source.toList with
  | error fault => simp [bind, Except.bind]
  | ok stream => simpa [bind, Except.bind] using statements_eq_ok_iff

theorem parseExpression_eq_ok_iff (source : String) (e : Expr) :
    parseExpression source = .ok e ↔ ∃ stream, tokenize source.toList = .ok stream ∧
      Nonterminal.sum.Stands (spelling stream.tokens) e := by
  unfold parseExpression
  cases tokenize source.toList with
  | error fault => simp [bind, Except.bind]
  | ok stream =>
    have read := @readExpression_eq_ok_iff stream.stop stream.tokens e
    simp only [bind, Except.bind, Except.ok.injEq, exists_eq_left', ← read, readExpression]
    cases expression stream.stop 0 stream.tokens with
    | error fault => simp [Except.map]
    | ok p =>
      obtain ⟨item, more, fewer⟩ := p
      cases more <;> simp [Except.map, pure, Except.pure]

/-- Parsing succeeds exactly on the sources whose tokens the grammar derives, and its results are
the trees of the only derivations. No matrix literal in them has an empty row. -/
theorem parse_exactly (source : String) :
    (∀ ss, parse source = .ok ss ↔ ∃ stream, tokenize source.toList = .ok stream ∧
      (Nonterminal.block .statement).Stands (spelling stream.tokens) ss) ∧
    (∀ e, parseExpression source = .ok e ↔ ∃ stream, tokenize source.toList = .ok stream ∧
      Nonterminal.sum.Stands (spelling stream.tokens) e) ∧
    (∀ ss, parse source = .ok ss → ∀ s ∈ ss, s.expr.RowsFilled) ∧
    ∀ e, parseExpression source = .ok e → e.RowsFilled := by
  refine ⟨parse_eq_ok_iff source, parseExpression_eq_ok_iff source, ?_, ?_⟩
  · intro ss done
    obtain ⟨stream, _, d, _, _, rfl⟩ := (parse_eq_ok_iff source ss).mp done
    exact d.rowsFilled
  · intro e done
    obtain ⟨stream, _, d, _, _, rfl⟩ := (parseExpression_eq_ok_iff source e).mp done
    exact d.rowsFilled

end MatrixCalculator.Language
