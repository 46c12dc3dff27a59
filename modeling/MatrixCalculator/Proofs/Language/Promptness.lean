import MatrixCalculator.Proofs.Language.Completeness
import MatrixCalculator.Proofs.Language.Lexing

/-! Prompt reading. A reader is prompt on an input if it looks no further than the token behind
what it takes, and if it fails at the first token that no longer can go on what stands in front:
it fails there whatever else follows, and what stands in front can still be completed. Readers
that are put together from prompt ones are prompt. -/
namespace MatrixCalculator.Language

variable {β γ : Type} {stop : Nat} {t : Token} {input more rest : List Token}

abbrev Reader (β : Type) := Nat → List Token → Except ParseFault (β × List Token)

def Reader.into {β γ : Type} (f : γ → β) (first : Reader γ) : Reader β := fun stop input =>
  (first stop input).map fun p => (f p.1, p.2)

def Reader.followedBy {β γ : Type} (first : Reader γ) (next : γ → Reader β) : Reader β :=
  fun stop input => first stop input >>= fun p => next p.1 stop p.2

/-- An operand and the brackets that close what is open. -/
def closers : List Lexeme := [.number ['0'], .symbol ')', .symbol ']']

def Completes (Ends : List Token → Prop) (read : Reader β) (before : List Token) : Prop :=
  ∃ closing item, closing ⊆ closers ∧ ∀ stop rest, Ends rest →
    read stop (before ++ (tokens closing ++ rest)) = .ok (item, rest)

/-- A reader that can finish at once, where another one ends. -/
def Finishes (Ends Ends' : List Token → Prop) (read : Reader β) : Prop :=
  ∃ closing item, closing ⊆ closers ∧ ∀ stop rest, Ends' rest →
    Ends (tokens closing ++ rest) ∧ read stop (tokens closing ++ rest) = .ok (item, rest)

structure Prompt (Ends : List Token → Prop) (read : Reader β) (stop : Nat)
    (input : List Token) : Prop where
  takes : ∀ {item rest}, read stop input = .ok (item, rest) → ∃ taken, input = taken ++ rest ∧
    ∀ stop other, nextLexeme? other = nextLexeme? rest ∨ Ends other →
      read stop (taken ++ other) = .ok (item, other)
  fails : ∀ {fault}, read stop input = .error fault → ∃ before after, input = before ++ after ∧
    fault.position = startOf stop after ∧
    (∀ t more, after = t :: more → ∀ stop other, read stop (before ++ t :: other) = .error fault) ∧
    Completes Ends read before

variable {Ends Ends' : List Token → Prop} {read : Reader β} {fault : ParseFault} {item : β}

theorem nextLexeme?_append_cons (front : List Token) (t : Token) {rest other : List Token}
    : nextLexeme? (front ++ t :: rest) = nextLexeme? (front ++ t :: other) := by
  cases front <;> rfl

theorem Completes.mono {before : List Token} (completes : Completes Ends read before)
    (fewer : ∀ {rest}, Ends' rest → Ends rest) : Completes Ends' read before := by
  obtain ⟨closing, item, closes, completes⟩ := completes
  exact ⟨closing, item, closes, fun stop rest ends => completes stop rest (fewer ends)⟩

theorem Prompt.mono (prompt : Prompt Ends read stop input)
    (fewer : ∀ {rest}, Ends' rest → Ends rest) : Prompt Ends' read stop input where
  takes done := by
    obtain ⟨taken, whole, again⟩ := prompt.takes done
    exact ⟨taken, whole, fun stop other like => again stop other (like.imp_right fewer)⟩
  fails failed := by
    obtain ⟨before, after, whole, position, again, completes⟩ := prompt.fails failed
    exact ⟨before, after, whole, position, again, completes.mono fewer⟩

theorem Prompt.atEnd (cause : ParseCause) (missing : read stop [] = .error ⟨cause, stop⟩)
    (completes : Completes Ends read []) : Prompt Ends read stop [] where
  takes done := by rw [missing] at done; contradiction
  fails failed := by
    rw [missing] at failed
    cases failed
    exact ⟨[], [], rfl, rfl, fun t more same => (by contradiction), completes⟩

theorem Prompt.refuses (cause : ParseCause)
    (refused : ∀ stop more, read stop (t :: more) = .error ⟨cause, t.position⟩)
    (completes : Completes Ends read []) : Prompt Ends read stop (t :: more) where
  takes done := by rw [refused] at done; contradiction
  fails failed := by
    rw [refused] at failed
    cases failed
    refine ⟨[], t :: more, rfl, rfl, fun u others same stop other => ?_, completes⟩
    cases same
    exact refused stop other

theorem Prompt.taken (item : β) (taken : ∀ stop more, read stop (t :: more) = .ok (item, more)) :
    Prompt Ends read stop (t :: more) where
  takes done := by
    rw [taken] at done
    cases done
    exact ⟨[t], rfl, fun stop other _ => taken stop other⟩
  fails failed := by rw [taken] at failed; contradiction

/-- Nothing is taken, and nothing would be taken of another input that goes on alike. -/
theorem Prompt.stays (stays : ∀ stop other, nextLexeme? other = nextLexeme? input ∨ Ends other →
    read stop other = .ok (item, other)) : Prompt Ends read stop input where
  takes done := by
    rw [stays stop input (.inl rfl)] at done
    cases done
    exact ⟨[], rfl, stays⟩
  fails failed := by rw [stays stop input (.inl rfl)] at failed; contradiction

/-- A first token, and what is read behind it. -/
theorem Prompt.cons (later : Reader β) (same : ∀ stop more, read stop (t :: more) = later stop more)
    (behind : Prompt Ends later stop more) : Prompt Ends read stop (t :: more) where
  takes done := by
    rw [same] at done
    obtain ⟨taken, rfl, again⟩ := behind.takes done
    exact ⟨t :: taken, rfl, fun stop other like => (same stop _).trans (again stop other like)⟩
  fails failed := by
    rw [same] at failed
    obtain ⟨before, after, rfl, position, again, closing, item, closes, completes⟩ :=
      behind.fails failed
    exact ⟨t :: before, after, rfl, position,
      fun u others follows stop other => (same stop _).trans (again u others follows stop other),
      closing, item, closes, fun stop rest ends => (same stop _).trans (completes stop rest ends)⟩

theorem Prompt.map (first : Reader γ) (f : γ → β)
    (same : ∀ stop input, read stop input = (first stop input).map fun p => (f p.1, p.2))
    (head : Prompt Ends first stop input) : Prompt Ends read stop input where
  takes done := by
    rw [same] at done
    cases read_first : first stop input with
    | error fault => rw [read_first] at done; contradiction
    | ok p =>
      rw [read_first] at done
      cases done
      obtain ⟨taken, whole, again⟩ := head.takes read_first
      exact ⟨taken, whole, fun stop other like => by rw [same, again stop other like]; rfl⟩
  fails failed := by
    rw [same] at failed
    cases read_first : first stop input with
    | ok p => rw [read_first] at failed; contradiction
    | error other =>
      rw [read_first] at failed
      cases failed
      obtain ⟨before, after, whole, position, again, closing, item, closes, completes⟩ :=
        head.fails read_first
      exact ⟨before, after, whole, position,
        fun u others follows stop other => by rw [same, again u others follows]; rfl,
        closing, f item, closes, fun stop rest ends => by rw [same, completes stop rest ends]; rfl⟩

theorem nextLexeme?_append {front : List Token} (some : front ≠ []) (rest other : List Token) :
    nextLexeme? (front ++ rest) = nextLexeme? (front ++ other) := by
  cases front with
  | nil => contradiction
  | cons t front => rfl

/-- A reader that goes on as the next one behind what the first has taken. -/
theorem Prompt.exists_taken {first : Reader γ} {next : γ → Reader β} {item : γ}
    (same : ∀ stop other, nextLexeme? other = nextLexeme? input →
      read stop other = first stop other >>= fun p => next p.1 stop p.2)
    (head : Prompt Ends first stop input) (read_first : first stop input = .ok (item, rest))
    (shorter : rest.length < input.length) :
    ∃ taken, input = taken ++ rest ∧ ∀ stop other,
      nextLexeme? other = nextLexeme? rest ∨ Ends other →
        read stop (taken ++ other) = next item stop other := by
  obtain ⟨taken, rfl, again⟩ := head.takes read_first
  have some : taken ≠ [] := by
    rintro rfl
    exact Nat.lt_irrefl _ shorter
  refine ⟨taken, rfl, fun stop other like => ?_⟩
  rw [same _ _ (nextLexeme?_append some other rest), again stop other like]
  rfl

/-- What can be completed for a reader can be completed for the next one as well. -/
theorem Completes.bind {first : Reader γ} {next : γ → Reader β} {before : List Token}
    (head : Completes Ends first before)
    (same : ∀ stop rest, read stop (before ++ rest) =
      first stop (before ++ rest) >>= fun p => next p.1 stop p.2)
    (finish : ∀ item, Finishes Ends Ends' (next item)) :
    Completes Ends' read before := by
  obtain ⟨closing, item, closes, completes⟩ := head
  obtain ⟨finishing, result, finishes, finished⟩ := finish item
  refine ⟨closing ++ finishing, result, List.append_subset.mpr ⟨closes, finishes⟩,
    fun stop rest ends => ?_⟩
  obtain ⟨ended, read_next⟩ := finished stop rest ends
  rw [same, tokens_append, List.append_assoc, completes stop _ ended]
  exact read_next

/-- What can be completed behind what is taken already. Where nothing has begun there, `finish`
completes it. -/
theorem Completes.append {next : Reader β} {taken before after : List Token}
    (joined : ∀ stop other, nextLexeme? other = nextLexeme? (before ++ after) ∨ Ends other →
      read stop (taken ++ other) = next stop other)
    (behind : Completes Ends' next before) (finish : Finishes Ends Ends' next) :
    Completes Ends' read (taken ++ before) := by
  rcases before with _ | ⟨t, before⟩
  · obtain ⟨closing, result, closes, finished⟩ := finish
    refine ⟨closing, result, closes, fun stop rest ends => ?_⟩
    obtain ⟨ended, read_next⟩ := finished stop rest ends
    rw [List.append_nil, joined _ _ (.inr ended)]
    exact read_next
  · obtain ⟨closing, result, closes, completes⟩ := behind
    refine ⟨closing, result, closes, fun stop rest ends => ?_⟩
    rw [List.append_assoc,
      joined _ _ (.inl (nextLexeme?_append (List.cons_ne_nil t before) _ after))]
    exact completes stop rest ends

/-- One reader, and the next one with what it has read. What stands in front of the next one can
be completed for both, which `finish` does where the next one has not begun. -/
theorem Prompt.bind (first : Reader γ) (next : γ → Reader β)
    (same : ∀ stop other, nextLexeme? other = nextLexeme? input →
      read stop other = first stop other >>= fun p => next p.1 stop p.2)
    (head : Prompt Ends first stop input)
    (shorter : ∀ {item rest}, first stop input = .ok (item, rest) → rest.length < input.length)
    (behind : ∀ {item rest}, first stop input = .ok (item, rest) →
      Prompt Ends' (next item) stop rest)
    (goes : ∀ {item stop rest result other}, next item stop rest = .ok (result, rest) →
      Ends' other → Ends other)
    (fresh : Completes Ends' read [])
    (finish : ∀ item, Finishes Ends Ends' (next item)) :
    Prompt Ends' read stop input where
  takes {result rest} done := by
    rw [same stop input rfl] at done
    obtain ⟨⟨item, between⟩, read_first, read_next⟩ := exists_of_bind_eq_ok done
    obtain ⟨taken, rfl, joined⟩ := head.exists_taken same read_first (shorter read_first)
    obtain ⟨later, rfl, again⟩ := (behind read_first).takes read_next
    refine ⟨taken ++ later, (List.append_assoc ..).symm, fun stop other like => ?_⟩
    rw [List.append_assoc, joined]
    · exact again stop other like
    · rcases later with _ | ⟨t, later⟩
      · exact like.imp_right (goes read_next)
      · exact .inl rfl
  fails {fault} failed := by
    rw [same stop input rfl] at failed
    cases read_first : first stop input with
    | error other =>
      -- The next reader has not begun, so `finish` completes it behind the first one.
      rw [read_first] at failed
      cases failed
      obtain ⟨before, after, rfl, position, again, completes⟩ := head.fails read_first
      refine ⟨before, after, rfl, position, fun t more follows stop other => ?_, ?_⟩
      · subst follows
        rw [same _ _ (nextLexeme?_append_cons before t), again t more rfl stop other]
        rfl
      · rcases before with _ | ⟨t, before⟩
        · exact fresh
        · exact completes.bind (fun stop rest =>
            same _ _ (nextLexeme?_append (List.cons_ne_nil t before) rest after)) finish
    | ok p =>
      -- The first reader takes the same again, since the token behind it has not changed.
      obtain ⟨item, between⟩ := p
      rw [read_first] at failed
      obtain ⟨taken, rfl, joined⟩ := head.exists_taken same read_first (shorter read_first)
      obtain ⟨before, after, rfl, position, again, completes⟩ := (behind read_first).fails failed
      refine ⟨taken ++ before, after, (List.append_assoc ..).symm, position,
        fun t more follows stop other => ?_, completes.append joined (finish item)⟩
      subst follows
      rw [List.append_assoc, joined _ _ (.inl (nextLexeme?_append_cons before t))]
      exact again t more rfl stop other

end MatrixCalculator.Language
