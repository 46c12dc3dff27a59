import MatrixCalculator.Proofs.Language.Joining
import MatrixCalculator.Proofs.Language.PromptExpression

/-! Parse faults are reported at the earliest possible token: up to there a source is the begin of
a program, and with the token at the fault it no longer is one. -/
namespace MatrixCalculator.Language

variable {stop least : Nat} {t : Token} {input more rest other : List Token}

section Statements

/-- Not the begin of an assignment. -/
def Plain (input : List Token) : Prop :=
  ∀ text, nextLexeme? input = some (.name text) → nextLexeme? input.tail ≠ some (.symbol '=')

theorem readStatement_plain (plain : Plain input) : readStatement stop input = (do
    let (expr, left) ← readExpression stop 0 input
    return (⟨expr, none⟩, left)) := by
  apply readStatement_expression
  rintro text p q rest rfl
  exact plain text rfl rfl

theorem Plain.append {front : List Token} (plain : Plain (front ++ rest)) (begun : front ≠ [])
    (like : nextLexeme? other = nextLexeme? rest ∨ nextLexeme? other ≠ some (.symbol '=')) :
    Plain (front ++ other) := by
  rcases front with _ | ⟨t, _ | ⟨u, front⟩⟩
  · contradiction
  · intro text name
    rcases like with same | ended
    · exact fun follows => plain text name (same.symm.trans follows)
    · exact ended
  · exact plain

theorem StatementEnds.not_equals (ends : StatementEnds input) :
    nextLexeme? input ≠ some (.symbol '=') := by
  intro follows
  obtain ⟨t, more, rfl, equals⟩ := exists_cons_of_next follows
  have separates := ends t more rfl
  rw [isSeparator, equals] at separates
  contradiction

theorem not_equals_of_closers {closing : List Lexeme} (closes : closing ⊆ closers)
    (ends : StatementEnds rest) : nextLexeme? (tokens closing ++ rest) ≠ some (.symbol '=') := by
  cases closing with
  | nil => exact ends.not_equals
  | cons lexeme closing =>
    intro follows
    obtain rfl : lexeme = .symbol '=' := Option.some.inj follows
    have member := closes List.mem_cons_self
    revert member
    decide

theorem Plain.completes {before after : List Token} (plain : Plain (before ++ after))
    (completes : Completes Delimited (fun stop => readExpression stop 0) before) :
    Completes StatementEnds readStatement before := by
  rcases before with _ | ⟨u, before⟩
  · refine ⟨[.number ['0']], ⟨zero, none⟩, by decide, fun stop rest ends => ?_⟩
    have plain : Plain (tokens [.number ['0']] ++ rest) := by
      intro text name
      cases Option.some.inj name
    rw [List.nil_append, readStatement_plain plain, readExpression_zero ends.delimited]
    rfl
  · obtain ⟨closing, item, closes, completes⟩ := completes
    refine ⟨closing, ⟨item, none⟩, closes, fun stop rest ends => ?_⟩
    have still := plain.append (List.cons_ne_nil u before)
      (.inr (not_equals_of_closers closes ends))
    have whole : readExpression stop 0 _ = .ok (item, rest) := completes stop rest ends.delimited
    rw [readStatement_plain still, whole]
    rfl

theorem prompt_plain (plain : Plain input) : Prompt StatementEnds readStatement stop input where
  takes {s rest} done := by
    rw [readStatement_plain plain] at done
    obtain ⟨⟨expr, left⟩, read, same⟩ := exists_of_bind_eq_ok done
    cases same
    have fewer := shorter_of_readExpression read
    obtain ⟨taken, rfl, again⟩ := ((allPrompt stop input).expression 0).takes read
    have begun : taken ≠ [] := by
      rintro rfl
      exact Nat.lt_irrefl _ fewer
    refine ⟨taken, rfl, fun stop other like => ?_⟩
    rw [readStatement_plain (plain.append begun (like.imp_right StatementEnds.not_equals)),
      again stop other (like.imp_right StatementEnds.delimited)]
    rfl
  fails {fault} failed := by
    rw [readStatement_plain plain] at failed
    cases read : readExpression stop 0 input with
    | ok p => rw [read] at failed; contradiction
    | error other =>
      rw [read] at failed
      cases failed
      obtain ⟨before, after, rfl, position, again, completes⟩ :=
        ((allPrompt stop input).expression 0).fails read
      refine ⟨before, after, rfl, position, fun t more follows stop other => ?_,
        plain.completes completes⟩
      subst follows
      have still : Plain (before ++ t :: other) := by
        rcases before with _ | ⟨u, before⟩
        · -- A name alone would have been read.
          intro text name
          have alone := again t more rfl stop []
          rw [List.nil_append, readExpression_name (Option.some.inj name)] at alone
          contradiction
        · exact plain.append (List.cons_ne_nil _ _) (.inl rfl)
      rw [readStatement_plain still, again t more rfl stop other]
      rfl

theorem prompt_statement (stop : Nat) (input : List Token) :
    Prompt StatementEnds readStatement stop input := by
  by_cases plain : Plain input
  · exact prompt_plain plain
  · obtain ⟨text, begins⟩ := Classical.not_forall.mp plain
    obtain ⟨name, equals⟩ := Classical.not_imp.mp begins
    obtain ⟨⟨_, p⟩, more, rfl, rfl⟩ := exists_cons_of_next name
    obtain ⟨⟨_, q⟩, rest, rfl, rfl⟩ := exists_cons_of_next (Classical.not_not.mp equals)
    apply Prompt.cons (fun stop more => readStatement stop (⟨.name text, p⟩ :: more))
      fun stop more => rfl
    apply Prompt.cons (Reader.into (⟨·, some (String.ofList text)⟩)
      fun stop => readExpression stop 0)
    · exact fun stop more => readStatement_assignment stop text p q more
    · exact .map (fun stop => readExpression stop 0) (⟨·, some (String.ofList text)⟩)
        (fun stop input => rfl) (((allPrompt stop rest).expression 0).mono StatementEnds.delimited)

def readStatements : Reader (List Statement) := fun stop input => do
  let ss ← statements stop input
  return (ss, [])

def readLater (first : Statement) : Reader (List Statement) := fun stop more =>
  match more with
  | [] => .ok ([first], [])
  | t :: rest =>
    if isSeparator t then do
      let (later, left) ← readStatements stop rest
      return (first :: later, left)
    else .error ⟨.unexpectedToken t.lexeme.text, t.position⟩

theorem readStatements_nil (stop : Nat) : readStatements stop [] = .ok ([], []) := by
  rw [readStatements, statements_eq]
  rfl

theorem readStatements_separator (separates : isSeparator t = true) :
    readStatements stop (t :: rest) = readStatements stop rest := by
  rw [readStatements, statements_eq]
  simp only [if_pos separates]
  rfl

theorem readStatements_statement (statement : ¬ isSeparator t = true) :
    readStatements stop (t :: rest) = (do
      let (first, more) ← readStatement stop (t :: rest)
      readLater first stop more) := by
  rw [readStatements, statements_eq]
  simp only [if_neg statement]
  cases readStatement stop (t :: rest) with
  | error fault => rfl
  | ok p =>
    obtain ⟨first, _ | ⟨u, others⟩⟩ := p
    · rfl
    · by_cases separates : isSeparator u = true
      · simp only [bind, Except.bind, readLater, if_pos separates, readStatements]
        cases statements stop others <;> rfl
      · simp only [bind, Except.bind, readLater, if_neg separates]

theorem finishes_later (first : Statement) :
    Finishes StatementEnds (· = []) (readLater first) := by
  refine ⟨[], [first], by decide, ?_⟩
  rintro stop rest rfl
  exact ⟨fun t more same => by contradiction, rfl⟩

theorem prompt_later (first : Statement)
    (later : ∀ t more, rest = t :: more → Prompt (· = []) readStatements stop more) :
    Prompt (· = []) (readLater first) stop rest := by
  cases rest with
  | nil =>
    apply Prompt.stays
    rintro stop (_ | ⟨t, more⟩) (like | ends)
    · rfl
    · rfl
    · contradiction
    · contradiction
  | cons t more =>
    by_cases separates : isSeparator t = true
    · apply Prompt.cons (Reader.into (first :: ·) readStatements)
      · exact fun stop more => if_pos separates
      · exact .map readStatements (first :: ·) (fun stop input => rfl) (later t more rfl)
    · refine .refuses (.unexpectedToken t.lexeme.text) (fun stop more => if_neg separates)
        ⟨[], [first], by decide, ?_⟩
      rintro stop rest rfl
      rfl

theorem prompt_statements (stop : Nat) (input : List Token) :
    Prompt (· = []) readStatements stop input := by
  induction size : input.length using Nat.strongRecOn generalizing input with
  | ind n ih =>
    subst size
    have fresh : Completes (· = []) readStatements [] := by
      refine ⟨[], [], by decide, ?_⟩
      rintro stop rest rfl
      exact readStatements_nil stop
    cases input with
    | nil =>
      apply Prompt.stays
      rintro stop (_ | ⟨t, more⟩) (like | ends)
      · exact readStatements_nil stop
      · exact readStatements_nil stop
      · contradiction
      · contradiction
    | cons t more =>
      by_cases separates : isSeparator t = true
      · exact .cons readStatements (fun stop more => readStatements_separator separates)
          (ih more.length (Nat.lt_succ_self _) more rfl)
      · refine .bind readStatement readLater (fun stop other like => ?_)
          (prompt_statement stop _) shorter_of_readStatement
          (fun {_ rest} done => prompt_later _ ?_)
          (fun _ => ?_) fresh finishes_later
        · obtain ⟨u, others, rfl, same⟩ := exists_cons_of_like like
          rw [isSeparator, ← same, ← isSeparator] at separates
          exact readStatements_statement separates
        · rintro u others rfl
          have fewer := shorter_of_readStatement done
          exact ih others.length (Nat.lt_of_succ_lt fewer) others rfl
        · rintro rfl u others same
          contradiction

/-- Where the tokens of a program fault, those in front can still be completed, and what follows
the token at the fault does not matter. -/
theorem statements_fault {fault : ParseFault} (failed : statements stop input = .error fault) :
    ∃ before after, input = before ++ after ∧ fault.position = startOf stop after ∧
      (∀ t more, after = t :: more → ∀ stop other,
        statements stop (before ++ t :: other) = .error fault) ∧
      ∃ closing ss, closing ⊆ closers ∧
        ∀ stop, statements stop (before ++ tokens closing) = .ok ss := by
  have failing : readStatements stop input = .error fault := by rw [readStatements, failed]; rfl
  obtain ⟨before, after, whole, position, again, closing, ss, closes, completes⟩ :=
    (prompt_statements stop input).fails failing
  refine ⟨before, after, whole, position, fun t more follows stop other => ?_, closing, ss, closes,
    fun stop => ?_⟩
  · have failing := again t more follows stop other
    unfold readStatements at failing
    cases read : statements stop (before ++ t :: other) with
    | error fault => rw [read] at failing; cases failing; rfl
    | ok ss => rw [read] at failing; contradiction
  · obtain ⟨ss', read, same⟩ := exists_of_bind_eq_ok (completes stop [] rfl)
    cases same
    rw [List.append_nil] at read
    exact read

end Statements

section Texts

/-- The texts of lexemes, each with a blank behind it. -/
def spaced (lexemes : List Lexeme) : List Char :=
  lexemes.flatMap fun lexeme => lexeme.text ++ [' ']

theorem breaks_blank : Breaks ' ' :=
  ⟨rfl, rfl, rfl, by decide⟩

theorem exists_alone_of_closers {lexeme : Lexeme} (closes : lexeme ∈ closers) :
    ∃ c, lexeme.text = [c] ∧ isGap c = false ∧ lexeme? c [] = some lexeme := by
  simp only [closers, List.mem_cons, List.not_mem_nil, or_false] at closes
  rcases closes with rfl | rfl | rfl <;> exact ⟨_, rfl, rfl, rfl⟩

theorem cutInto_spaced {closing : List Lexeme} (closes : closing ⊆ closers) (position : Nat) :
    ∃ tokens, CutInto position (spaced closing) tokens ∧ spelling tokens = closing := by
  induction closing generalizing position with
  | nil => exact ⟨[], .done, rfl⟩
  | cons lexeme closing ih =>
    obtain ⟨first, others⟩ := List.cons_subset.mp closes
    obtain ⟨c, spelled, solid, found⟩ := exists_alone_of_closers first
    obtain ⟨tokens, cut, same⟩ := ih others (position + 1 + 1)
    have apart : lexeme? c (' ' :: spaced closing) = some lexeme :=
      (@lexeme?_of_breaks c [] _ _ breaks_blank).trans found
    refine ⟨⟨lexeme, position⟩ :: tokens, ?_, by rw [spelling_cons, same]⟩
    rw [spaced, List.flatMap_cons, spelled]
    exact .single solid apart spelled (.gap rfl cut)

/-- A source that is cut off in front of a token, or of the end, can be gone on with behind a
blank. -/
theorem exists_completion {source : String} {before after : List Token} {closing : List Lexeme}
    (cut : CutInto 0 source.toList (before ++ after)) (closes : closing ⊆ closers)
    {ss : List Statement} (read : ∀ stop, statements stop (before ++ tokens closing) = .ok ss) :
    ∃ w, parse (String.ofList (source.toList.take (startOf source.toList.length after)) ++ " " ++
      w) = .ok ss := by
  obtain ⟨front, back, whole, start, cut_front⟩ := cut.exists_front
  obtain ⟨closers, cut_closers, spelled⟩ := cutInto_spaced closes (0 + front.length + 1)
  have joined : CutInto 0 (front ++ ' ' :: spaced closing) (before ++ closers) :=
    cut_front.append breaks_blank (.gap rfl cut_closers)
  refine ⟨String.ofList (spaced closing), ?_⟩
  have text : (String.ofList (source.toList.take (startOf source.toList.length after)) ++ " " ++
      String.ofList (spaced closing)).toList = front ++ ' ' :: spaced closing := by
    rw [Nat.zero_add, Nat.zero_add] at start
    rw [start, whole]
    simp
  rw [parse_eq_of_cut (text ▸ joined)]
  exact statements_of_spelling (read 0) (by simp [spelling_append, spelled])

end Texts

/-- A source that is cut into tokens but is no program is rejected at its earliest token that no
program has there: what stands in front of it is the begin of a program, and every source with
the same tokens up to this one is rejected in the same way. -/
theorem fault_earliest {source : String} {stream : TokenStream} {fault : ParseFault}
    (cut : tokenize source.toList = .ok stream) (failed : parse source = .error fault) :
    ∃ before after, stream.tokens = before ++ after ∧
      fault.position = startOf source.toList.length after ∧
      (∃ w ss, parse (String.ofList (source.toList.take fault.position) ++ " " ++ w) = .ok ss) ∧
      ∀ t more, after = t :: more → ∀ (other : String) (otherStream : TokenStream),
        tokenize other.toList = .ok otherStream → before ++ [t] <+: otherStream.tokens →
          parse other = .error fault := by
  obtain ⟨tokens, stop⟩ := tokenize_eq_ok_iff.mp cut
  rw [parse_eq_of_cut tokens] at failed
  obtain ⟨before, after, whole, position, again, closing, ss, closes, completes⟩ :=
    statements_fault failed
  rw [whole] at tokens
  obtain ⟨w, completed⟩ := exists_completion tokens closes completes
  refine ⟨before, after, whole, position, ⟨w, ss, position ▸ completed⟩, ?_⟩
  rintro t more follows other otherStream cut_other ⟨others, agree⟩
  obtain ⟨tokens_other, _⟩ := tokenize_eq_ok_iff.mp cut_other
  rw [parse_eq_of_cut tokens_other, ← agree, List.append_assoc]
  exact again t more follows _ others

/-- A second element without a comma in front of it, inside of two open brackets. -/
theorem missing_comma_earliest :
    tokenize "f([a b".toList = .ok ⟨[⟨.name ['f'], 0⟩, ⟨.symbol '(', 1⟩, ⟨.symbol '[', 2⟩,
        ⟨.name ['a'], 3⟩, ⟨.name ['b'], 5⟩], 6⟩ ∧
      parse "f([a b" = .error ⟨.missingSeparator ['b'], 5⟩ ∧
      ∃ w ss, parse ("f([a " ++ " " ++ w) = .ok ss := by
  have cut : tokenize "f([a b".toList = .ok ⟨[⟨.name ['f'], 0⟩, ⟨.symbol '(', 1⟩,
      ⟨.symbol '[', 2⟩, ⟨.name ['a'], 3⟩, ⟨.name ['b'], 5⟩], 6⟩ :=
    tokenize_eq_ok_iff.mpr ⟨by decide +kernel, rfl⟩
  have failed : parse "f([a b" = .error ⟨.missingSeparator ['b'], 5⟩ := by
    rw [parse_eq_of_cut (tokenize_eq_ok_iff.mp cut).1]
    cbv
  have front : String.ofList ("f([a b".toList.take 5) = "f([a " := by decide
  obtain ⟨before, after, _, _, completed, _⟩ := fault_earliest cut failed
  rw [front] at completed
  exact ⟨cut, failed, completed⟩

end MatrixCalculator.Language
