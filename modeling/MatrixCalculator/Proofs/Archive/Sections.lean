import MatrixCalculator.Proofs.Archive.Refinement
import MatrixCalculator.Proofs.Checked.Outcome

/-! The sections of any archive that can be loaded. They are loadable whatever its text has been, so
what is written in place of one of them is read back together with all the others, if there is no
half of a surrogate pair among them. -/
namespace MatrixCalculator.Archive

open Json

variable {archive : Archive} {fields settings : Fields} {records kept : List Json} {key : Str}
  {value limit : Json}

theorem storable_emptySections : Storable (.object emptySections) :=
  storable_sections storable_defaultSettings fun _ member => absurd member List.not_mem_nil

/-- Sections that an archive can have: they come out of a text, and none of the two is missing. -/
structure Complete (fields : Fields) : Prop where
  loadable : Loadable (.object fields)
  settings : (field? fields settingsKey).isSome
  history : (field? fields historyKey).isSome

theorem isSome_putDefault (key : Str) (value : Json) (fields : Fields) :
    (field? (putDefault key value fields) key).isSome = true := by
  unfold putDefault
  split
  · next given => exact given
  · rw [field?_put_self]
    rfl

theorem isSome_put {other : Str} (given : (field? fields other).isSome = true) (key : Str)
    (value : Json) : (field? (put key value fields) other).isSome = true := by
  by_cases same : other = key
  · rw [same, field?_put_self]
    rfl
  · rw [field?_put_other same]
    exact given

theorem isSome_putDefault_other {other : Str} (given : (field? fields other).isSome = true)
    (key : Str) (value : Json) :
    (field? (putDefault key value fields) other).isSome = true := by
  unfold putDefault
  split
  · exact given
  · exact isSome_put given key value

theorem complete_emptySections : Complete emptySections :=
  ⟨(storable_iff.mp storable_emptySections).1, rfl, rfl⟩

theorem Complete.put (complete : Complete fields) (loadable : Loadable value) (key : Str) :
    Complete (put key value fields) :=
  ⟨complete.loadable.put loadable key, isSome_put complete.settings key value,
    isSome_put complete.history key value⟩

/-- Whatever the text of an archive is, the sections that come out of it are complete. -/
theorem complete_of_sections (loaded : archive.sections = .ok fields) : Complete fields := by
  unfold sections at loaded
  split at loaded
  · cases loaded
    exact complete_emptySections
  · split at loaded
    · next text stored read =>
      cases loaded
      have usual := (storable_iff.mp storable_defaultSettings).1
      have settings := (loadable_of_read read).putDefault usual settingsKey
      have none : Loadable (.array []) := .array fun _ member => absurd member List.not_mem_nil
      exact ⟨settings.putDefault none historyKey,
        isSome_putDefault_other (isSome_putDefault _ _ _) _ _, isSome_putDefault _ _ _⟩
    · contradiction
    · cases loaded
      exact complete_emptySections

/-- Complete sections are read back as they have been written. -/
theorem sections_ofSections (complete : Complete fields) (whole : Whole (.object fields)) :
    (ofSections fields).sections = .ok fields := by
  unfold sections ofSections
  dsimp only
  rw [read_text (storable_iff.mpr ⟨complete.loadable, whole⟩)]
  dsimp only
  rw [putDefault, if_pos, putDefault, if_pos complete.settings]
  rw [putDefault, if_pos complete.settings]
  exact complete.history

/-- Sections are written exactly if there is no half of a surrogate pair in them. -/
theorem store_eq_ok_iff {next : Archive} :
    store fields = .ok next ↔ Whole (.object fields) ∧ next = ofSections fields := by
  rw [← torn_eq_none_iff 0, store]
  cases torn 0 (.object fields) with
  | none => simp [eq_comm]
  | some left => simp

def Writable (archive : Archive) : Prop :=
  ∃ fields, archive.sections = .ok fields ∧ Whole (.object fields)

theorem whole_record (expression answer : String) (moment : Moment) :
    Whole (recordOf expression answer moment) :=
  (storable_iff.mp (storable_record expression answer (readsBack_all moment.epoch))).2

theorem whole_addHistory (expression answer : String) (moment : Moment)
    (whole : Whole (.object fields)) (history : field? fields historyKey = some (.array records))
    (limited : limited limit (recordOf expression answer moment :: records) = .ok kept) :
    Whole (.object (Json.put historyKey (.array kept) fields)) := by
  have left := forall_limited limited (whole_record expression answer moment)
    (whole.of_field? history).of_array
  exact whole.put (.array left) rfl

theorem settings_eq (loaded : archive.sections = .ok fields) :
    archive.settings = settingsOf fields := by
  rw [Archive.settings, loaded]
  rfl

theorem history_eq {past : Json} (loaded : archive.sections = .ok fields)
    (found : field? fields historyKey = some past) : archive.history = .ok past := by
  rw [Archive.history, loaded]
  change Except.ok ((field? fields historyKey).getD (.array [])) = _
  rw [found]
  rfl

theorem addHistory_eq (expression answer : String) (moment : Moment)
    (loaded : archive.sections = .ok fields) (merged : settingsOf fields = .ok settings)
    (history : field? fields historyKey = some (.array records)) :
    archive.addHistory expression answer moment =
      (limited ((field? settings limitKey).getD .null)
        (recordOf expression answer moment :: records)).bind
          fun kept => store (put historyKey (.array kept) fields) := by
  rw [addHistory, loaded]
  change settingsOf fields >>= _ = _
  rw [merged]
  simp only [bind, Except.bind, history]

/-- What there has to be in an archive that a record can be added to. -/
theorem exists_of_addHistory {expression answer : String} {moment : Moment} {next : Archive}
    (done : archive.addHistory expression answer moment = .ok next) :
    ∃ fields settings records kept, archive.sections = .ok fields ∧
      settingsOf fields = .ok settings ∧ field? fields historyKey = some (.array records) ∧
      limited ((field? settings limitKey).getD .null)
        (recordOf expression answer moment :: records) = .ok kept ∧
      Whole (.object (put historyKey (.array kept) fields)) ∧
      next = ofSections (put historyKey (.array kept) fields) := by
  unfold addHistory at done
  obtain ⟨fields, loaded, done⟩ := Checked.bind_eq_ok done
  obtain ⟨settings, merged, done⟩ := Checked.bind_eq_ok done
  dsimp only at done
  split at done
  · next records found =>
    obtain ⟨kept, limited, written⟩ := Checked.bind_eq_ok done
    exact ⟨fields, settings, records, kept, loaded, merged, found, limited,
      store_eq_ok_iff.mp written⟩
  · contradiction

/-- A record is put in front of those that are there, and all other sections stay. -/
theorem sections_addHistory (expression answer : String) (moment : Moment)
    (loaded : archive.sections = .ok fields) (merged : settingsOf fields = .ok settings)
    (history : field? fields historyKey = some (.array records))
    (limited : limited ((field? settings limitKey).getD .null)
      (recordOf expression answer moment :: records) = .ok kept)
    (whole : Whole (.object (put historyKey (.array kept) fields))) :
    ∃ next, archive.addHistory expression answer moment = .ok next ∧
      next.sections = .ok (put historyKey (.array kept) fields) := by
  have complete := complete_of_sections loaded
  have record := storable_record expression answer (readsBack_all moment.epoch)
  have left := forall_limited limited (storable_iff.mp record).1
    (complete.loadable.of_field? history).of_array
  refine ⟨_, ?_, sections_ofSections (complete.put (.array left) historyKey) whole⟩
  rw [addHistory_eq expression answer moment loaded merged history, limited]
  exact store_eq_ok_iff.mpr ⟨whole, rfl⟩

theorem settingsOf_put_history (value : Json) (fields : Fields) :
    settingsOf (put historyKey value fields) = settingsOf fields := by
  rw [settingsOf, field?_put_other (by decide), settingsOf]

end MatrixCalculator.Archive
