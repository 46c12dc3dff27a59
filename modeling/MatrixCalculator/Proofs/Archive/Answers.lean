import MatrixCalculator.Proofs.Archive.Survival

/-! The answers that an archive records, the newest first. An archive whose settings and records can
be read and whose sections can be written takes one more answer, and its records can be read
again. -/
namespace MatrixCalculator.Archive

open Json

variable {archive : Archive} {settings : Fields} {records : List Json}
  {answered : List (String × String)}

def answerOf : Json → Except ArchiveFault (String × String)
  | .object fields =>
    match field? fields "expression", field? fields "answer" with
    | some (.string (.whole expression)), some (.string (.whole answer)) => .ok (expression, answer)
    | _, _ => .error .historyNotArray
  | _ => .error .historyNotArray

theorem answers_eq (history : archive.history = .ok (.array records)) :
    archive.answers = records.mapM answerOf := by
  rw [answers, history]
  rfl

theorem exists_of_answers (read : archive.answers = .ok answered) :
    ∃ records, archive.history = .ok (.array records) ∧
      records.mapM answerOf = .ok answered := by
  obtain ⟨past, history, done⟩ := Checked.bind_eq_ok read
  cases past with
  | array records => exact ⟨records, history, done⟩
  | _ => contradiction

theorem mapM_take {β γ ε : Type} {f : β → Except ε γ} {items : List β} {images : List γ}
    (done : items.mapM f = .ok images) (count : Nat) :
    (items.take count).mapM f = .ok (images.take count) := by
  induction items generalizing images count with
  | nil =>
    obtain rfl : images = [] := (Except.ok.inj done).symm
    rw [List.take_nil, List.take_nil]
    rfl
  | cons item items ih =>
    rw [List.mapM_cons] at done
    obtain ⟨image, first, done⟩ := Checked.bind_eq_ok done
    obtain ⟨rest, others, done⟩ := Checked.bind_eq_ok done
    cases done
    cases count with
    | zero => rfl
    | succ count =>
      rw [List.take_succ_cons, List.take_succ_cons, List.mapM_cons, first, Checked.ok_bind,
        ih others count]
      rfl

/-- An answer comes in front of those that can be read, and as many are left as records are. -/
theorem answers_addHistory (configured : archive.settings = .ok settings)
    (limits : IsLimit ((field? settings limitKey).getD .null)) (writable : archive.Writable)
    (read : archive.answers = .ok answered) (expression answer : String) (moment : Moment) :
    ∃ records kept next, limited ((field? settings limitKey).getD .null)
        (recordOf expression answer moment :: records) = .ok kept ∧
      archive.addHistory expression answer moment = .ok next ∧ next.settings = .ok settings ∧
      next.Writable ∧ ∀ count, kept = (recordOf expression answer moment :: records).take count →
        next.answers = .ok (((expression, answer) :: answered).take count) := by
  obtain ⟨records, history, answers⟩ := exists_of_answers read
  obtain ⟨fields, loaded, merged⟩ := Checked.bind_eq_ok configured
  obtain ⟨same, loaded', whole⟩ := writable
  obtain rfl := Except.ok.inj (loaded.symm.trans loaded')
  have found : field? fields historyKey = some (.array records) := by
    obtain ⟨past, given⟩ := Option.isSome_iff_exists.mp (complete_of_sections loaded).history
    rw [given, Except.ok.inj ((history_eq loaded given).symm.trans history)]
  obtain ⟨kept, limit⟩ := limited_ok_iff.mpr limits
  have still := whole_addHistory expression answer moment whole found limit
  obtain ⟨next, added, after⟩ :=
    sections_addHistory expression answer moment loaded merged found limit still
  refine ⟨records, kept, next, limit, added, ?_, ⟨_, after, still⟩, ?_⟩
  · rw [settings_eq after, settingsOf_put_history, merged]
  · -- The records that are kept are a front part, and so are the answers read from them.
    rintro count rfl
    have all : (recordOf expression answer moment :: records).mapM answerOf =
        .ok ((expression, answer) :: answered) := by
      rw [List.mapM_cons, answers]
      rfl
    rw [answers_eq (history_eq after (field?_put_self _ _ _))]
    exact mapM_take all count

/-- An archive that answers can be recorded in and listed from. -/
structure Ready (archive : Archive) : Prop where
  limited : ∃ settings, archive.settings = .ok settings ∧
    IsLimit ((field? settings limitKey).getD .null)
  writable : archive.Writable
  answered : ∃ answered, archive.answers = .ok answered

theorem Ready.addHistory (ready : archive.Ready) (expression answer : String) (moment : Moment) :
    ∃ next, archive.addHistory expression answer moment = .ok next ∧ next.Ready := by
  obtain ⟨settings, configured, limits⟩ := ready.limited
  obtain ⟨answered, read⟩ := ready.answered
  obtain ⟨records, kept, next, limit, added, same, still, answers⟩ :=
    answers_addHistory configured limits ready.writable read expression answer moment
  have front := List.prefix_iff_eq_take.mp (limited_isPrefix limit)
  exact ⟨next, added, ⟨settings, same, limits⟩, still, _, answers _ front⟩

theorem writable_empty : empty.Writable :=
  ⟨emptySections, rfl, (storable_iff.mp storable_emptySections).2⟩

theorem ready_empty : empty.Ready :=
  ⟨⟨defaultSettings, rfl, .inr (.inr ⟨200, rfl⟩)⟩, writable_empty, [], rfl⟩

end MatrixCalculator.Archive
