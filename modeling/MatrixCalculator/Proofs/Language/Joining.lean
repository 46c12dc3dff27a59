import MatrixCalculator.Proofs.Language.Exactness
import MatrixCalculator.Proofs.Language.Lexing

/-! Sources joined by a separator. The tokens of the first end at the separator, and the
derivations of both make one of the joined source. -/
namespace MatrixCalculator.Language

variable {p : Piece} {stop stop' stop'' : Nat} {t : Token} {left right : List Token}
  {ss later : List Statement}

theorem exists_spaced (separators : List Separator) (d : Derivation (.block p)) :
    ∃ e : Derivation (.block p),
      e.yield = separators.map Separator.lexeme ++ d.yield ∧ e.tree = d.tree := by
  induction separators with
  | nil => exact ⟨d, rfl, rfl⟩
  | cons separator separators ih =>
    obtain ⟨e, yields, means⟩ := ih
    obtain ⟨f, spaced, same⟩ := exists_separated separator e
    exact ⟨f, by rw [spaced, yields]; rfl, same.trans means⟩

namespace Derivation

theorem exists_tail_append (separator : Separator) (d : Derivation (.block p)) :
    (front : Derivation (.tail p)) → ∃ e : Derivation (.tail p),
      e.yield = front.yield ++ separator.lexeme :: d.yield ∧ e.tree = front.tree ++ d.tree
  | finish [] => exists_after_separator separator d
  | finish (first :: trailing) => by
    obtain ⟨spaced, yields, means⟩ := exists_spaced (trailing ++ [separator]) d
    obtain ⟨e, after, same⟩ := exists_after_separator first spaced
    exact ⟨e, by rw [after, yields]; simp [yield], same.trans means⟩
  | next between separators first others => by
    obtain ⟨e, yields, means⟩ := exists_tail_append separator d others
    exact ⟨next between separators first e, by simp [yield, yields],
      congrArg (first.tree :: ·) means⟩

theorem exists_block_append (separator : Separator) (front d : Derivation (.block p)) :
    ∃ e : Derivation (.block p),
      e.yield = front.yield ++ separator.lexeme :: d.yield ∧ e.tree = front.tree ++ d.tree := by
  cases front with
  | blank separators =>
    obtain ⟨e, yields, means⟩ := exists_spaced (separators ++ [separator]) d
    exact ⟨e, by rw [yields]; simp [yield], means⟩
  | filled leading first others =>
    obtain ⟨e, yields, means⟩ := exists_tail_append separator d others
    exact ⟨filled leading first e, by simp [yield, yields], congrArg (first.tree :: ·) means⟩

end Derivation

theorem statements_append (first : statements stop left = .ok ss) (separates : isSeparator t)
    (second : statements stop' right = .ok later) :
    statements stop'' (left ++ t :: right) = .ok (ss ++ later) := by
  obtain ⟨separator, spelled⟩ := isSeparator_iff.mp separates
  obtain ⟨d, yields, rfl⟩ := statements_sound first
  obtain ⟨e, later_yields, rfl⟩ := statements_sound second
  obtain ⟨joined, joined_yields, means⟩ := d.exists_block_append separator e
  rw [← means]
  apply joined.reads stop''
  rw [joined_yields, yields, later_yields, ← spelled, spelling, List.map_append]
  rfl

/-- Success depends on the lexemes only, not on where they stand. -/
theorem statements_of_spelling (read : statements stop left = .ok ss)
    (same : spelling right = spelling left) : statements stop' right = .ok ss := by
  rw [statements_eq_ok_iff] at read ⊢
  rwa [same]

theorem exists_cut_of_parse {source : String} (parsed : parse source = .ok ss) :
    ∃ tokens, CutInto 0 source.toList tokens ∧
      statements source.toList.length tokens = .ok ss := by
  obtain ⟨stream, cut, read⟩ := exists_of_bind_eq_ok parsed
  obtain ⟨tokens, stop⟩ := tokenize_eq_ok_iff.mp cut
  rw [stop] at read
  exact ⟨stream.tokens, tokens, read⟩

theorem parse_eq_of_cut {source : String} {tokens : List Token}
    (cut : CutInto 0 source.toList tokens) :
    parse source = statements source.toList.length tokens := by
  have stream : tokenize source.toList = .ok ⟨tokens, source.toList.length⟩ :=
    tokenize_eq_ok_iff.mpr ⟨cut, rfl⟩
  rw [parse, stream]
  rfl

theorem breaks_of_separator {c : Char} (separates : c ∈ [';', '\n']) : Breaks c := by
  simp only [List.mem_cons, List.not_mem_nil, or_false] at separates
  rcases separates with rfl | rfl <;> exact ⟨by decide, by decide, by decide, by decide⟩

/-- A separator is a token of its own. -/
theorem cutInto_separator {c : Char} (separates : c ∈ [';', '\n']) {position : Nat}
    {cs : List Char} {tokens : List Token} (cut : CutInto (position + 1) cs tokens) :
    ∃ t, isSeparator t ∧ CutInto position (c :: cs) (t :: tokens) := by
  simp only [List.mem_cons, List.not_mem_nil, or_false] at separates
  rcases separates with rfl | rfl
  · exact ⟨⟨.symbol ';', position⟩, rfl, CutInto.single rfl rfl rfl cut⟩
  · exact ⟨⟨.lineBreak, position⟩, rfl, CutInto.single rfl rfl rfl cut⟩

theorem parse_append {first second : String} (parsed : parse first = .ok ss)
    (parsed_later : parse second = .ok later) {c : Char} (separates : c ∈ [';', '\n']) :
    parse (first ++ String.singleton c ++ second) = .ok (ss ++ later) := by
  obtain ⟨left, cut, read⟩ := exists_cut_of_parse parsed
  obtain ⟨right, cut_later, read_later⟩ := exists_cut_of_parse parsed_later
  obtain ⟨moved, cut_moved, spelled⟩ := cut_later.elsewhere (0 + first.toList.length + 1)
  obtain ⟨t, separator, behind⟩ := cutInto_separator separates cut_moved
  have whole := cut.append (breaks_of_separator separates) behind
  have text : (first ++ String.singleton c ++ second).toList =
      first.toList ++ c :: second.toList := by simp
  have read_moved : statements 0 moved = .ok later := statements_of_spelling read_later spelled
  rw [parse_eq_of_cut (text ▸ whole)]
  exact statements_append read separator read_moved

end MatrixCalculator.Language
