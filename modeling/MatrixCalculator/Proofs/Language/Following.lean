import MatrixCalculator.Proofs.Language.Cursor

/-! Readings that follow a reader of token lists. A reading with a cursor follows a reader if it ends
with the same item in front of the same rest, or with the same fault. What it has done is paid for
by the items that it has passed, up to a bound on the balance of its cursor. -/
namespace MatrixCalculator.Language

/-- What a reading keeps to: the end mark ahead of it, and a bound on the depth. -/
structure Scope where
  tape : Tape
  /-- The position of the end mark in the source. -/
  stop : Nat
  /-- The index of the end mark on the tape. -/
  finish : Nat
  ceiling : Nat

variable {s : Scope} {c : Cursor} {t : Token} {input rest : List Token}

/-- Whether the cursor stands in front of some tokens and the end mark. -/
structure Scope.Faces (s : Scope) (c : Cursor) (input : List Token) : Prop where
  stands : ∃ behind, s.tape.items.drop c.index =
    input.map Item.ofToken ++ ⟨none, s.stop⟩ :: behind
  reach : c.index + input.length = s.finish
  shallow : c.deepest ≤ s.ceiling

section Facing

/-- Up to the next end mark there is nothing but tokens. -/
theorem exists_tokens {items : List Item} {position : Nat}
    (ends : items.getLast? = some ⟨none, position⟩) :
    ∃ (input : List Token) (stop : Nat) (behind : List Item),
      items = input.map Item.ofToken ++ ⟨none, stop⟩ :: behind := by
  induction items with
  | nil => contradiction
  | cons item rest ih =>
    obtain ⟨lexeme, place⟩ := item
    cases lexeme with
    | none => exact ⟨[], place, rest, rfl⟩
    | some lexeme =>
      have further : rest.getLast? = some ⟨none, position⟩ := by
        cases rest with
        | nil => cases ends
        | cons next others => rwa [List.getLast?_cons_cons] at ends
      obtain ⟨input, stop, behind, same⟩ := ih further
      exact ⟨⟨lexeme, place⟩ :: input, stop, behind, by rw [same]; rfl⟩

/-- A cursor inside of a tape stands in front of some tokens and an end mark. -/
theorem exists_faces (tape : Tape) (inside : c.index < tape.items.length) :
    ∃ (input : List Token) (stop : Nat), c.index + input.length < tape.items.length ∧
      ∀ ceiling, c.deepest ≤ ceiling →
        Scope.Faces ⟨tape, stop, c.index + input.length, ceiling⟩ c input := by
  obtain ⟨position, last⟩ := tape.ends
  have ends : (tape.items.drop c.index).getLast? = some ⟨none, position⟩ := by
    rw [List.getLast?_drop, if_neg (Nat.not_le.mpr inside), last]
  obtain ⟨input, stop, behind, same⟩ := exists_tokens ends
  have size := congrArg List.length same
  simp only [List.length_drop, List.length_append, List.length_map, List.length_cons] at size
  exact ⟨input, stop, by omega, fun ceiling shallow => ⟨⟨behind, same⟩, rfl, shallow⟩⟩

namespace Scope.Faces

variable (faces : s.Faces c input)
include faces

theorem room : c.index + input.length < s.tape.items.length := by
  obtain ⟨behind, same⟩ := faces.stands
  have size := congrArg List.length same
  simp only [List.length_drop, List.length_append, List.length_map, List.length_cons] at size
  omega

theorem inside : c.index < s.tape.items.length :=
  Nat.lt_of_le_of_lt (Nat.le_add_right _ _) faces.room

/-- Up to the end mark there are tokens. -/
theorem token {i : Nat} (later : c.index ≤ i) (before : i < s.finish) :
    ∃ t, s.tape.items[i]? = some (.ofToken t) := by
  obtain ⟨behind, same⟩ := faces.stands
  have reach := faces.reach
  have within : i - c.index < input.length := by omega
  have shifted : (s.tape.items.drop c.index)[i - c.index]? = s.tape.items[i]? := by
    rw [List.getElem?_drop, Nat.add_sub_cancel' later]
  refine ⟨input[i - c.index], ?_⟩
  rw [← shifted, same, List.getElem?_append_left (by simpa using within), List.getElem?_map,
    List.getElem?_eq_getElem within, Option.map_some]

theorem item : s.tape.items[c.index]? = some ⟨nextLexeme? input, startOf s.stop input⟩ := by
  obtain ⟨behind, same⟩ := faces.stands
  rw [← List.head?_drop, same]
  cases input <;> rfl

theorem looked : s.Faces c.looked input :=
  ⟨faces.stands, faces.reach, faces.shallow⟩

theorem entered {depth : Nat} (bound : depth ≤ s.ceiling) : s.Faces (c.entered depth) input :=
  ⟨faces.stands, faces.reach, Nat.max_le.mpr ⟨faces.shallow, bound⟩⟩

theorem index_le : c.index ≤ s.finish :=
  faces.reach ▸ Nat.le_add_right _ _

end Scope.Faces

theorem Scope.Faces.moved (faces : s.Faces c (t :: rest)) : s.Faces c.moved rest where
  stands := by
    obtain ⟨behind, same⟩ := faces.stands
    refine ⟨behind, ?_⟩
    rw [Cursor.moved, ← List.drop_drop, same]
    rfl
  reach := by
    have reach := faces.reach
    simp only [List.length_cons] at reach
    simp only [Cursor.moved]
    omega
  shallow := faces.shallow

end Facing

namespace Descent

section Looks

variable (faces : s.Faces c input)
include faces

theorem run_peek : run (peek s.tape 0) c =
    some (.ok ⟨nextLexeme? input, startOf s.stop input⟩, c.looked) := by
  have clamped : min (c.index + 0) (s.tape.items.length - 1) = c.index := by
    have inside := faces.inside
    omega
  rw [run, peek, clamped, faces.item]

/-- A look at the item behind the next one; behind the end mark it is of no use. -/
theorem run_peek_next : ∃ item, run (peek s.tape 1) c = some (.ok item, c.looked) ∧
    ∀ t more, input = t :: more → item = ⟨nextLexeme? more, startOf s.stop more⟩ := by
  have inside := faces.inside
  have within : min (c.index + 1) (s.tape.items.length - 1) < s.tape.items.length := by omega
  refine ⟨s.tape.items[min (c.index + 1) (s.tape.items.length - 1)], ?_, ?_⟩
  · rw [run, peek, List.getElem?_eq_getElem within]
  · rintro t more rfl
    have further : c.index + 1 < s.tape.items.length := faces.moved.inside
    have clamped : min (c.index + 1) (s.tape.items.length - 1) = c.index + 1 := by omega
    have item := faces.moved.item
    rw [Cursor.moved, List.getElem?_eq_getElem further, Option.some.injEq] at item
    simp only [clamped, item]

theorem run_seesEnd : run (seesEnd s.tape) c = some (.ok input.isEmpty, c.looked) := by
  rw [seesEnd, run_bind_ok (run_peek faces)]
  cases input <;> rfl

theorem run_seesSymbol (symbol : Char) : run (seesSymbol s.tape symbol) c =
    some (.ok (nextLexeme? input == some (.symbol symbol)), c.looked) := by
  rw [seesSymbol, run_bind_ok (run_peek faces)]
  rfl

theorem run_seesSeparator :
    run (seesSeparator s.tape) c = some (.ok (input.head?.any isSeparator), c.looked) := by
  rw [seesSeparator, run_bind_ok (run_peek faces)]
  cases input <;> rfl

end Looks

/-- Whether a reading does nothing but look, at most so many times, and answers `b`. -/
def Looks (s : Scope) (input : List Token) (looks : Nat) (p : Descent Bool) (b : Bool) : Prop :=
  ∀ c, s.Faces c input → ∃ later, run p c = some (.ok b, later) ∧ s.Faces later input ∧
    c.balance - looks ≤ later.balance

theorem looks_seesEnd : Looks s input 1 (seesEnd s.tape) input.isEmpty :=
  fun c faces => ⟨c.looked, run_seesEnd faces, faces.looked, by simp⟩

theorem looks_seesSymbol (symbol : Char) :
    Looks s input 1 (seesSymbol s.tape symbol) (nextLexeme? input == some (.symbol symbol)) :=
  fun c faces => ⟨c.looked, run_seesSymbol faces symbol, faces.looked, by simp⟩

theorem looks_seesSeparator :
    Looks s input 1 (seesSeparator s.tape) (input.head?.any isSeparator) :=
  fun c faces => ⟨c.looked, run_seesSeparator faces, faces.looked, by simp⟩

/-- The second look is not taken where the first one has settled the question. -/
theorem Looks.or {p q : Descent Bool} {b d : Bool} {m n : Nat} (first : Looks s input m p b)
    (second : Looks s input n q d) : Looks s input (m + n) (p <||> q) (b || d) := by
  intro c faces
  obtain ⟨later, ended, faces, kept⟩ := first c faces
  rw [orM, run_bind_ok ended]
  cases b with
  | true => exact ⟨later, rfl, faces, by omega⟩
  | false =>
    obtain ⟨last, ended, faces, left⟩ := second later faces
    exact ⟨last, ended, faces, by omega⟩

theorem run_advance (faces : s.Faces c (t :: rest)) :
    run (advance s.tape) c = some (.ok (.ofToken t), c.moved) := by
  rw [run, advance, faces.item]
  rfl

theorem run_advance_end (faces : s.Faces c []) :
    run (advance s.tape) c = some (.ok ⟨none, s.stop⟩, c.looked) := by
  rw [run, advance, faces.item]
  rfl

end Descent

/-- Whether a reading ends as a reader of token lists does. What it gives back leaves at least a
balance of `gain`, and if it is refused, at least one of `loss`. -/
inductive Scope.Follows (s : Scope) (gain loss : Int) {β : Type} :
    Option (Except Halt β × Cursor) → Except ParseFault (β × List Token) → Prop
  | read {item : β} {rest : List Token} {c : Cursor} (faces : s.Faces c rest)
      (kept : gain ≤ c.balance) : s.Follows gain loss (some (.ok item, c)) (.ok (item, rest))
  | refused {fault : ParseFault} {c : Cursor} (inside : c.index ≤ s.finish)
      (shallow : c.deepest ≤ s.ceiling) (kept : loss ≤ c.balance) :
      s.Follows gain loss (some (.error (.fault fault), c)) (.error fault)

namespace Scope.Follows

open Descent

variable {β γ : Type} {p : Descent β} {f : β → Descent γ} {gain gain' loss loss' : Int}
  {result : Option (Except Halt β × Cursor)} {answer : Except ParseFault (β × List Token)}
  {next : β × List Token → Except ParseFault (γ × List Token)}

theorem mono (follows : s.Follows gain loss result answer) (less : gain' ≤ gain)
    (lower : loss' ≤ loss) : s.Follows gain' loss' result answer := by
  cases follows with
  | read faces kept => exact .read faces (Int.le_trans less kept)
  | refused inside shallow kept => exact .refused inside shallow (Int.le_trans lower kept)

theorem ended (follows : s.Follows gain gain (run p c) answer) :
    ∃ later, run p c = some ((answer.map Prod.fst).mapError .fault, later) ∧
      later.index ≤ s.finish ∧ later.deepest ≤ s.ceiling ∧ gain ≤ later.balance ∧
      ∀ item rest, answer = .ok (item, rest) → later.index + rest.length = s.finish := by
  generalize run p c = result at follows
  cases follows with
  | read faces kept =>
    refine ⟨_, rfl, faces.index_le, faces.shallow, kept, fun item rest same => ?_⟩
    cases same
    exact faces.reach
  | refused inside shallow kept =>
    exact ⟨_, rfl, inside, shallow, kept, fun item rest same => by contradiction⟩

/-- A reading that stops at once. -/
theorem refuse (faces : s.Faces c input) (cause : ParseCause) (position : Nat)
    (kept : loss ≤ c.balance) :
    s.Follows gain loss (run (refuse cause position : Descent β) c) (.error ⟨cause, position⟩) :=
  .refused faces.index_le faces.shallow kept

/-- One reading after the other follows one reader after the other. -/
theorem bind (first : s.Follows gain loss (run p c) answer) (lower : loss' ≤ loss)
    (behind : ∀ {item rest later}, answer = .ok (item, rest) → s.Faces later rest →
      gain ≤ later.balance → s.Follows gain' loss' (run (f item) later) (next (item, rest))) :
    s.Follows gain' loss' (run (p >>= f) c) (answer >>= next) := by
  generalize ended : run p c = result at first
  cases first with
  | read faces kept =>
    rw [run_bind_ok ended]
    exact behind rfl faces kept
  | refused inside shallow kept =>
    rw [run_bind_error ended]
    exact .refused inside shallow (Int.le_trans lower kept)

/-- A symbol is passed with a look and a move, and missed with two looks. -/
theorem takeSymbol {symbol : Char} {next : List Token → Except ParseFault (γ × List Token)}
    {f : Item → Descent γ} (faces : s.Faces c input) (kept : loss ≤ c.balance - 2)
    (behind : ∀ {item t rest}, input = t :: rest → s.Faces c.looked.moved rest →
      s.Follows gain loss (run (f item) c.looked.moved) (next rest)) :
    s.Follows gain loss (run (takeSymbol s.tape symbol >>= f) c)
      (readSymbol s.stop symbol input >>= next) := by
  have sees := run_seesSymbol faces symbol
  have spent : loss ≤ c.looked.looked.balance := by
    simp only [Cursor.balance_looked]
    omega
  rw [readSymbol_eq]
  cases input with
  | nil =>
    have missed : run (Descent.takeSymbol s.tape symbol) c =
        some (.error (.fault ⟨.missing symbol none, s.stop⟩), c.looked.looked) := by
      rw [Descent.takeSymbol, run_bind_ok sees]
      exact run_bind_ok (run_peek faces.looked)
    rw [run_bind_error missed]
    exact .refused faces.index_le faces.shallow spent
  | cons t rest =>
    rw [nextLexeme?_cons] at sees
    dsimp only
    by_cases here : t.lexeme = .symbol symbol
    · have passed : run (Descent.takeSymbol s.tape symbol) c =
          some (.ok (.ofToken t), c.looked.moved) := by
        rw [Descent.takeSymbol, run_bind_ok sees, here, if_pos (beq_self_eq_true _)]
        exact run_advance faces.looked
      rw [run_bind_ok passed, if_pos here]
      exact behind rfl faces.looked.moved
    · have missed : run (Descent.takeSymbol s.tape symbol) c =
          some (.error (.fault ⟨.missing symbol (some t.lexeme.text), t.position⟩),
            c.looked.looked) := by
        rw [Descent.takeSymbol, run_bind_ok sees, if_neg (by simpa using here)]
        exact run_bind_ok (run_peek faces.looked)
      rw [run_bind_error missed, if_neg here]
      exact .refused faces.index_le faces.shallow spent

end Scope.Follows

end MatrixCalculator.Language
