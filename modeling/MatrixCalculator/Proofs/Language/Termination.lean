import MatrixCalculator.Proofs.Language.Joining
import MatrixCalculator.Proofs.Language.Progress

/-! Reading ends on every tape and so on every source, however malformed. Each procedure and each
round of a loop passes at least one token where it succeeds, and none passes an end mark. The number
of items bounds the steps, the nesting and the fuel that is needed. -/
namespace MatrixCalculator.Language

/-- The number of tokens of a source and the end mark. A source that has no tokens because of an
unknown character is not read any further. -/
def tokenCount (source : String) : Nat :=
  match tokenize source.toList with
  | .error _ => 0
  | .ok stream => stream.tape.items.length

namespace Descent

variable {β : Type} {tape : Tape} {depth : Nat} {c later : Cursor} {input rest : List Token}

def readSource (whole : Tape → Nat → Descent β) (fuel : Nat) (source : String) :
    Option (Except Halt β × Cursor) :=
  match tokenize source.toList with
  | .error fault => some (.error (.fault fault), .start)
  | .ok stream => run (whole stream.tape fuel) .start

/-- Whether a source is read to an outcome within a number of steps and a depth of nesting that its
tokens bound, however much fuel there is beyond what they require. -/
def ReadsTo (whole : Tape → Nat → Descent β) (source : String) (outcome : Except ParseFault β) :
    Prop :=
  ∀ fuel, 4 * tokenCount source ≤ fuel → ∃ later,
    readSource whole fuel source = some (outcome.mapError .fault, later) ∧
      later.steps ≤ 12 * tokenCount source ∧ later.deepest ≤ 3 * tokenCount source + 1

structure Ending (tape : Tape) (depth : Nat) (p : Descent β) (c : Cursor)
    (outcome : Except ParseFault β) (later : Cursor) : Prop where
  /-- No item is asked for that is not on the tape. -/
  ended : run p c = some (outcome.mapError .fault, later)
  inside : later.index < tape.items.length
  /-- Nothing but tokens has been passed. -/
  passed : ∀ i, c.index ≤ i → i < later.index → ∃ t, tape.items[i]? = some (.ofToken t)
  steps : later.steps ≤ c.steps + 12 * tape.items.length
  deepest : later.deepest ≤ max c.deepest (depth + 3 * tape.items.length)

/-- Whether a procedure does what a reader does with the tokens up to the next end mark, wherever it
begins, and passes a token where it succeeds. -/
def Advances (tape : Tape) (depth : Nat) (p : Nat → Descent β) (reader : Reader β) : Prop :=
  ∀ fuel c, 4 * tape.items.length ≤ fuel → c.index < tape.items.length → ∃ input stop later,
    (∃ behind, tape.items.drop c.index = input.map Item.ofToken ++ ⟨none, stop⟩ :: behind) ∧
    Ending tape depth (p fuel) c ((reader stop input).map Prod.fst) later ∧
    ∀ item rest, reader stop input = .ok (item, rest) →
      c.index < later.index ∧ later.index + rest.length = c.index + input.length

structure Progress (tape : Tape) : Prop where
  expression : ∀ depth least,
    Advances tape depth (expression tape · depth least) (readHeld least)
  operand : ∀ depth, Advances tape depth (operand tape · depth) readOperand
  call : ∀ depth name, Advances tape depth (call tape · depth name) (readCall name)
  matrix : ∀ depth, Advances tape depth (matrix tape · depth) readMatrix
  matrixRound : ∀ depth rows, Advances tape depth
    (fun fuel => matrixRound tape (Descent.expression tape fuel (depth + 1) 0) rows)
    (readRound rows)
  statement : ∀ depth, Advances tape depth (statement tape · depth) readStatement
  programRound : ∀ depth before,
    Advances tape depth (programRound tape · depth before) (readPart before)
  program : ∀ fuel, 4 * tape.items.length ≤ fuel →
    ∃ outcome later, Ending tape 1 (program tape fuel 1) .start outcome later

/-- Whether a procedure follows a reader at a cost that the tape bounds. -/
def Keeps (depth : Nat) (p : Tape → Nat → Descent β) (reader : Reader β) : Prop :=
  ∀ (s : Scope) c fuel input, s.Faces c input → depth + 3 * input.length + 3 ≤ s.ceiling →
    4 * input.length + 4 ≤ fuel →
    s.Follows (c.balance - 9) (c.balance - 9) (run (p s.tape fuel) c) (reader s.stop input)

section Endings

variable {p : Tape → Nat → Descent β} {reader : Reader β} {fuel stop : Nat}

theorem Keeps.ending (keeps : Keeps depth p reader)
    (faces : ∀ ceiling, c.deepest ≤ ceiling →
      Scope.Faces ⟨tape, stop, c.index + input.length, ceiling⟩ c input)
    (enough : 4 * tape.items.length ≤ fuel) :
    ∃ later, Ending tape depth (p tape fuel) c ((reader stop input).map Prod.fst) later ∧
      ∀ item rest, reader stop input = .ok (item, rest) →
        later.index + rest.length = c.index + input.length := by
  have faces := faces (max c.deepest (depth + 3 * tape.items.length)) (Nat.le_max_left _ _)
  have room : c.index + input.length < tape.items.length := faces.room
  have bound : depth + 3 * input.length + 3 ≤ max c.deepest (depth + 3 * tape.items.length) := by
    omega
  obtain ⟨later, ended, reached, shallow, kept, consumed⟩ :=
    (keeps _ c fuel input faces bound (by omega)).ended
  have reached : later.index ≤ c.index + input.length := reached
  refine ⟨later, ⟨ended, by omega, fun i behind before => ?_, ?_, shallow⟩, consumed⟩
  · exact faces.token behind (Nat.lt_of_lt_of_le before reached)
  · simp only [Cursor.balance] at kept
    omega

/-- A procedure passes a token wherever its reader does. -/
theorem Keeps.advances (keeps : Keeps depth p reader)
    (shorter : ∀ {stop input item rest}, reader stop input = .ok (item, rest) →
      rest.length < input.length) (tape : Tape) : Advances tape depth (p tape) reader := by
  intro fuel c enough inside
  obtain ⟨input, stop, _, faces⟩ := exists_faces tape inside
  obtain ⟨later, ending, consumed⟩ := keeps.ending faces enough
  refine ⟨input, stop, later, (faces _ (Nat.le_refl _)).stands, ending, fun item rest read => ?_⟩
  have fewer := shorter read
  have together := consumed item rest read
  exact ⟨by omega, together⟩

end Endings

section Keeping

variable (depth : Nat)

theorem keeps_expression (least : Nat) :
    Keeps depth (expression · · depth least) (readHeld least) :=
  fun s c fuel input faces bound enough =>
    ((allFollow s input).expression c fuel depth least faces (by omega) (by omega)).mono
      (by omega) (by omega)

theorem keeps_operand : Keeps depth (operand · · depth) readOperand :=
  fun s c fuel input faces bound enough =>
    ((allFollow s input).operand c fuel depth faces (by omega) (by omega)).mono
      (by omega) (by omega)

theorem keeps_call (name : String) : Keeps depth (call · · depth name) (readCall name) :=
  fun s _ _ _ faces bound enough =>
    (follows_call (fun rest _ => allFollow s rest) name faces (by omega) (by omega)).mono
      (by omega) (by omega)

theorem keeps_matrix : Keeps depth (matrix · · depth) readMatrix :=
  fun s _ _ input faces bound enough =>
    (follows_matrix (allFollow s input).rows faces (by omega) enough).mono (by omega) (by omega)

theorem keeps_matrixRound (rows : Rows) :
    Keeps depth (fun tape fuel => matrixRound tape (expression tape fuel (depth + 1) 0) rows)
      (readRound rows) :=
  fun s _ _ input faces bound enough =>
    (follows_matrixRound (allFollow s input).expression rows faces (by omega) (by omega)).mono
      (by omega) (by omega)

theorem keeps_statement : Keeps depth (statement · · depth) readStatement :=
  fun _ _ _ _ faces bound enough =>
    (follows_statement faces (by omega) (by omega)).mono (by omega) (by omega)

theorem keeps_programRound (before : List Statement) :
    Keeps depth (programRound · · depth before) (readPart before) :=
  fun _ _ _ _ faces bound enough =>
    (follows_programRound before faces bound (by omega)).mono (by omega) (by omega)

theorem keeps_program : Keeps depth (program · · depth) readAll :=
  fun _ _ _ _ faces bound enough =>
    (follows_program faces bound (by omega)).mono (by omega) (by omega)

theorem keeps_singleExpression : Keeps depth (singleExpression · · depth) readSingle :=
  fun _ _ _ _ faces bound enough =>
    (follows_singleExpression faces (by omega) (by omega)).mono (by omega) (by omega)

end Keeping

theorem progress (tape : Tape) : Progress tape where
  expression depth least := (keeps_expression depth least).advances shorter_of_readHeld tape
  operand depth := (keeps_operand depth).advances shorter_of_readOperand tape
  call depth name := (keeps_call depth name).advances shorter_of_readCall tape
  matrix depth := (keeps_matrix depth).advances shorter_of_readMatrix tape
  matrixRound depth rows := (keeps_matrixRound depth rows).advances shorter_of_readRound tape
  statement depth := (keeps_statement depth).advances shorter_of_readStatement tape
  programRound depth before := (keeps_programRound depth before).advances shorter_of_readPart tape
  program fuel enough := by
    obtain ⟨position, last⟩ := tape.ends
    have inside : Cursor.start.index < tape.items.length := by
      cases items : tape.items with
      | nil => rw [items] at last; contradiction
      | cons item more => exact Nat.succ_pos _
    obtain ⟨input, stop, _, faces⟩ := exists_faces tape inside
    obtain ⟨later, ending, _⟩ := (keeps_program 1).ending faces enough
    exact ⟨_, later, ending⟩

section Sources

theorem faces_start (stream : TokenStream) (ceiling : Nat) :
    Scope.Faces ⟨stream.tape, stream.stop, Cursor.start.index + stream.tokens.length, ceiling⟩
      .start stream.tokens :=
  ⟨⟨[], rfl⟩, rfl, Nat.zero_le _⟩

theorem Keeps.readsTo {p : Tape → Nat → Descent β} {reader : Reader β}
    {outcome : Except ParseFault β} (keeps : Keeps 1 p reader) (source : String)
    (same : (do
      let stream ← tokenize source.toList
      (reader stream.stop stream.tokens).map Prod.fst) = outcome) : ReadsTo p source outcome := by
  subst same
  unfold ReadsTo readSource tokenCount
  cases tokenize source.toList with
  | error fault => exact fun _ _ => ⟨.start, rfl, Nat.le_refl _, Nat.zero_le _⟩
  | ok stream =>
    intro fuel enough
    obtain ⟨later, ending, _⟩ := keeps.ending (fun ceiling _ => faces_start stream ceiling) enough
    have steps := ending.steps
    have deepest := ending.deepest
    simp only [Cursor.start] at steps deepest
    exact ⟨later, ending.ended, by dsimp only; omega, by dsimp only; omega⟩

/-- Reading all statements from the tokens of a source is what the parser does. -/
theorem readAll_eq (source : String) : (do
    let stream ← tokenize source.toList
    (readAll stream.stop stream.tokens).map Prod.fst) = parse source := by
  rw [parse]
  congr 1
  funext stream
  rw [readAll]
  cases statements stream.stop stream.tokens <;> rfl

theorem readSingle_eq (source : String) : (do
    let stream ← tokenize source.toList
    (readSingle stream.stop stream.tokens).map Prod.fst) = parseExpression source := by
  rw [parseExpression]
  congr 1
  funext stream
  rw [readSingle, readExpression]
  cases Language.expression stream.stop 0 stream.tokens with
  | error fault => rfl
  | ok parsed =>
    obtain ⟨expr, more, fewer⟩ := parsed
    cases more <;> rfl

end Sources

/-- Reading ends on every source with what the parser answers, and on the way no procedure stands
still. -/
theorem parsing_ends : (∀ tape, Progress tape) ∧ ∀ source,
    ReadsTo (program · · 1) source (parse source) ∧
      ReadsTo (singleExpression · · 1) source (parseExpression source) :=
  ⟨progress, fun source =>
    ⟨(keeps_program 1).readsTo source (readAll_eq source),
      (keeps_singleExpression 1).readsTo source (readSingle_eq source)⟩⟩

/-- Two brackets that are never closed. -/
theorem open_brackets_end :
    (∃ later, readSource (program · · 1) 24 "f([a b" =
        some (.error (.fault ⟨.missingSeparator ['b'], 5⟩), later) ∧
      later.steps ≤ 72 ∧ later.deepest ≤ 19) ∧
    ∃ outcome later, run (matrix ⟨[⟨some (.name ['a']), 3⟩, ⟨none, 4⟩], 4, rfl⟩ 8 1) .start =
        some (outcome, later) ∧ outcome ≠ .error .outside ∧ later.index < 2 := by
  have cut : tokenize "f([a b".toList = .ok ⟨[⟨.name ['f'], 0⟩, ⟨.symbol '(', 1⟩,
      ⟨.symbol '[', 2⟩, ⟨.name ['a'], 3⟩, ⟨.name ['b'], 5⟩], 6⟩ :=
    tokenize_eq_ok_iff.mpr ⟨by decide +kernel, rfl⟩
  have failed : parse "f([a b" = .error ⟨.missingSeparator ['b'], 5⟩ := by
    rw [parse_eq_of_cut (tokenize_eq_ok_iff.mp cut).1]
    cbv
  have count : tokenCount "f([a b" = 6 := by
    rw [tokenCount, cut]
    rfl
  constructor
  · have enough : 4 * tokenCount "f([a b" ≤ 24 := by omega
    obtain ⟨later, ended, steps, deepest⟩ := (parsing_ends.2 "f([a b").1 24 enough
    rw [failed] at ended
    rw [count] at steps deepest
    exact ⟨later, ended, steps, deepest⟩
  · obtain ⟨input, stop, later, _, ending, _⟩ := (parsing_ends.1
      ⟨[⟨some (.name ['a']), 3⟩, ⟨none, 4⟩], 4, rfl⟩).matrix 1 8 .start (Nat.le_refl _) Nat.two_pos
    refine ⟨_, later, ending.ended, ?_, ending.inside⟩
    cases (readMatrix stop input).map Prod.fst <;> rintro ⟨⟩

end Descent

end MatrixCalculator.Language
