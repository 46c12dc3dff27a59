import MatrixCalculator.Archive
import MatrixCalculator.Proofs.Json.Whole

/-! The archive stands for the last saved settings and for records, the newest first. Every
operation reads the whole text and writes it back, so it has to leave the section that it does not
own as it was; what it writes is read back, since every value in it is storable. -/
namespace MatrixCalculator

namespace Json

variable {key : Str} {base upper : Fields}

theorem field?_eq_none {fields : Fields} (fresh : key ∉ fields.map (·.1)) :
    field? fields key = none := by
  induction fields with
  | nil => rfl
  | cons f fields ih =>
    obtain ⟨other, value⟩ := f
    obtain ⟨different, fresh⟩ := not_or.mp fun member => fresh (List.mem_cons.mpr member)
    have apart : (key == other) = false := by simpa using different
    rw [field?, List.lookup_cons, apart]
    exact ih fresh

/-- A key of both objects has the value of the second one. -/
theorem field?_overlay (distinct : (upper.map (·.1)).Nodup) (key : Str) (base : Fields) :
    field? (overlay base upper) key = (field? upper key).or (field? base key) := by
  induction upper generalizing base with
  | nil => rfl
  | cons f upper ih =>
    obtain ⟨other, value⟩ := f
    obtain ⟨fresh, distinct⟩ := List.nodup_cons.mp distinct
    have step : overlay base ((other, value) :: upper) = overlay (put other value base) upper := rfl
    rw [step, ih distinct]
    by_cases same : key = other
    · subst same
      rw [field?_eq_none fresh, field?_put_self]
      simp [field?]
    · have apart : (key == other) = false := by simpa using same
      rw [field?_put_other same]
      simp [field?, List.lookup_cons, apart]

end Json

namespace Archive

open Json

variable {archive : Archive} {stored : Fields} {records : List Json}

structure Holds (archive : Archive) (stored : Fields) (records : List Json) : Prop where
  sections : archive.sections =
    .ok [(settingsKey, .object stored), (historyKey, .array records)]
  stored : Storable (.object stored)
  records : ∀ record ∈ records, Storable record

theorem storable_sections (stored_ok : Storable (.object stored))
    (records_ok : ∀ record ∈ records, Storable record) :
    Storable (.object [(settingsKey, .object stored), (historyKey, .array records)]) := by
  have distinct : [settingsKey, historyKey].Nodup := by decide
  have named : settingsKey.isWhole = true ∧ historyKey.isWhole = true := by decide
  refine .object distinct (by simpa using named) fun f member => ?_
  simp only [List.mem_cons, List.not_mem_nil, or_false] at member
  rcases member with rfl | rfl
  · exact stored_ok
  · exact .array records_ok

/-- Storable sections are written without a stop. -/
theorem store_eq {fields : Fields} (storable : Storable (.object fields)) :
    store fields = .ok (ofSections fields) := by
  rw [store, (storable_iff.mp storable).2.torn_eq_none]

theorem holds_ofSections (stored_ok : Storable (.object stored))
    (records_ok : ∀ record ∈ records, Storable record) :
    (ofSections [(settingsKey, .object stored), (historyKey, .array records)]).Holds
      stored records := by
  refine ⟨?_, stored_ok, records_ok⟩
  unfold sections ofSections
  dsimp only
  rw [read_text (storable_sections stored_ok records_ok)]
  rfl

theorem storable_defaultSettings : Storable (.object defaultSettings) := by
  refine .object (by decide) (by decide) fun f member => ?_
  simp only [defaultSettings, List.mem_cons, List.not_mem_nil, or_false] at member
  rcases member with rfl | rfl | rfl | rfl | rfl
  · exact .integer (by decide)
  · exact .bool true
  · exact .bool true
  · exact .integer (by decide)
  · exact .string "WARNING"

theorem holds_empty : empty.Holds defaultSettings [] :=
  ⟨rfl, storable_defaultSettings, fun _ member => absurd member List.not_mem_nil⟩

theorem holds_cleared : cleared.Holds defaultSettings [] :=
  holds_ofSections storable_defaultSettings fun _ member => absurd member List.not_mem_nil

theorem overlay_defaultSettings : overlay defaultSettings defaultSettings = defaultSettings := by
  rfl

theorem storable_record (expression answer : String) {moment : Moment}
    (back : ReadsBack moment.epoch) : Storable (recordOf expression answer moment) := by
  have distinct : (["expression", "answer", "timestamp", "epoch"] : List Str).Nodup := by decide
  refine .object distinct (by simp [Str.isWhole]) fun f member => ?_
  simp only [List.mem_cons, List.not_mem_nil, or_false] at member
  rcases member with rfl | rfl | rfl | rfl
  · exact .string expression
  · exact .string answer
  · exact .string moment.timestamp
  · exact .double back

def IsRecord (record : Json) (expression answer : String) (moment : Moment) : Prop :=
  ∃ fields, record = .object fields ∧ field? fields "expression" = some (.string expression) ∧
    field? fields "answer" = some (.string answer) ∧
    field? fields "timestamp" = some (.string moment.timestamp) ∧
    field? fields "epoch" = some (.double moment.epoch)

theorem isRecord_recordOf (expression answer : String) (moment : Moment) :
    IsRecord (recordOf expression answer moment) expression answer moment :=
  ⟨_, rfl, rfl, rfl, rfl, rfl⟩

theorem limited_isPrefix {limit : Json} {kept : List Json} (done : limited limit records = .ok kept) :
    kept <+: records := by
  unfold limited at done
  split at done
  · cases done
    exact List.prefix_refl _
  · cases done
    exact List.take_prefix _ _
  · cases done
    split <;> exact List.take_prefix _ _
  · contradiction

theorem forall_limited {property : Json → Prop} {limit record : Json} {kept : List Json}
    (done : limited limit (record :: records) = .ok kept) (first : property record)
    (others : ∀ old ∈ records, property old) : ∀ left ∈ kept, property left := fun left member =>
  List.forall_mem_cons.mpr ⟨first, others⟩ left ((limited_isPrefix done).subset member)

/-- The limit of the history that the stored settings set, or else the default one. -/
def limitOf (stored : Fields) : Json :=
  (field? (overlay defaultSettings stored) limitKey).getD .null

namespace Holds

theorem settings (holds : archive.Holds stored records) :
    archive.settings = .ok (overlay defaultSettings stored) := by
  rw [Archive.settings, holds.sections]
  rfl

theorem history (holds : archive.Holds stored records) :
    archive.history = .ok (.array records) := by
  rw [Archive.history, holds.sections]
  rfl

theorem saveSettings (holds : archive.Holds stored records) {saved : Fields}
    (storable : Storable (.object saved)) :
    ∃ next, archive.saveSettings saved = .ok next ∧ next.Holds saved records := by
  refine ⟨_, ?_, holds_ofSections storable holds.records⟩
  rw [Archive.saveSettings, withSection, holds.sections]
  exact store_eq (storable_sections storable holds.records)

theorem addHistory (holds : archive.Holds stored records) (expression answer : String)
    {moment : Moment} (back : ReadsBack moment.epoch) {kept : List Json}
    (limit : limited (limitOf stored) (recordOf expression answer moment :: records) = .ok kept) :
    ∃ next, archive.addHistory expression answer moment = .ok next ∧ next.Holds stored kept := by
  have left := forall_limited limit (storable_record expression answer back) holds.records
  refine ⟨_, ?_, holds_ofSections holds.stored left⟩
  rw [Archive.addHistory, holds.sections]
  change limited (limitOf stored) _ >>= _ = _
  rw [limit]
  exact store_eq (storable_sections holds.stored left)

theorem clearHistory (holds : archive.Holds stored records) :
    ∃ next, archive.clearHistory = .ok next ∧ next.Holds stored [] := by
  have none : ∀ record ∈ [], Storable record := fun _ member => absurd member List.not_mem_nil
  refine ⟨_, ?_, holds_ofSections holds.stored none⟩
  rw [Archive.clearHistory, withSection, holds.sections]
  exact store_eq (storable_sections holds.stored none)

end Holds

inductive Operation
  | saveSettings (stored : Fields)
  | addHistory (expression answer : String) (moment : Moment)
  | clearHistory
  | clear
  | readSettings
  | readHistory

def perform (archive : Archive) : Operation → Except ArchiveFault Archive
  | .saveSettings stored => archive.saveSettings stored
  | .addHistory expression answer moment => archive.addHistory expression answer moment
  | .clearHistory => archive.clearHistory
  | .clear => .ok cleared
  | .readSettings => do
    let _ ← archive.settings
    return archive
  | .readHistory => do
    let _ ← archive.history
    return archive

def performAll (archive : Archive) (operations : List Operation) : Except ArchiveFault Archive :=
  operations.foldlM perform archive

/-- A limit that is absent, null or a whole number. -/
def LimitUsable (stored : Fields) : Prop :=
  ∀ limit, field? stored limitKey = some limit → limit = .null ∨ ∃ n, limit = .integer n

/-- Only what comes back from its text is saved, with a usable limit. -/
def Operation.Admissible : Operation → Prop
  | .saveSettings stored => Storable (.object stored) ∧ LimitUsable stored
  | .addHistory _ _ moment => ReadsBack moment.epoch
  | .clearHistory | .clear | .readSettings | .readHistory => True

/-- The settings saved last, and none if all has been cleared since. -/
def Operation.saved (last : Option Fields) : Operation → Option Fields
  | .saveSettings stored => some stored
  | .clear => none
  | .addHistory _ _ _ | .clearHistory | .readSettings | .readHistory => last

def Operation.added (records : List Json) : Operation → List Json
  | .addHistory expression answer moment => recordOf expression answer moment :: records
  | .clearHistory | .clear => []
  | .saveSettings _ | .readSettings | .readHistory => records

def lastSaved (operations : List Operation) : Option Fields :=
  operations.foldl Operation.saved none

def addedSinceClear (operations : List Operation) : List Json :=
  operations.foldl Operation.added []

def merged : Option Fields → Fields
  | none => defaultSettings
  | some stored => overlay defaultSettings stored

def settingsAfter (operations : List Operation) : Fields :=
  merged (lastSaved operations)

/-- A setting has the value saved last, or else its default one. -/
theorem field?_merged {last : Option Fields}
    (storable : Storable (.object (last.getD defaultSettings))) (key : Str) :
    field? (merged last) key = (last.bind (field? · key)).or (field? defaultSettings key) := by
  cases last with
  | none => rfl
  | some stored =>
    cases storable with
    | object distinct named values => exact field?_overlay distinct key defaultSettings

theorem exists_of_mem_added {operations : List Operation} {record : Json}
    (member : record ∈ operations.foldl Operation.added records) :
    record ∈ records ∨ ∃ expression answer moment,
      .addHistory expression answer moment ∈ operations ∧
        record = recordOf expression answer moment := by
  induction operations generalizing records with
  | nil => exact .inl member
  | cons operation operations ih =>
    rcases ih member with before | ⟨expression, answer, moment, later, same⟩
    · cases operation with
      | addHistory expression answer moment =>
        rcases List.mem_cons.mp before with new | old
        · exact .inr ⟨expression, answer, moment, List.mem_cons_self, new⟩
        · exact .inl old
      | clearHistory => exact absurd before List.not_mem_nil
      | clear => exact absurd before List.not_mem_nil
      | saveSettings stored => exact .inl before
      | readSettings => exact .inl before
      | readHistory => exact .inl before
    · exact .inr ⟨expression, answer, moment, List.mem_cons_of_mem _ later, same⟩

theorem limitOf_eq (storable : Storable (.object stored)) :
    limitOf stored = (field? stored limitKey).getD (.integer 200) := by
  cases storable with
  | object distinct named values =>
    rw [limitOf, field?_overlay distinct]
    cases field? stored limitKey <;> rfl

theorem exists_limited (storable : Storable (.object stored)) (usable : LimitUsable stored)
    (records : List Json) : ∃ kept, limited (limitOf stored) records = .ok kept := by
  rw [limitOf_eq storable]
  cases found : field? stored limitKey with
  | none => exact ⟨_, rfl⟩
  | some limit =>
    rcases usable limit found with rfl | ⟨n, rfl⟩
    · exact ⟨_, rfl⟩
    · exact ⟨_, rfl⟩

/-- An archive in which stands what was saved last, and the newest of what was added. -/
structure Follows (archive : Archive) (last : Option Fields) (added records : List Json) :
    Prop where
  holds : archive.Holds (last.getD defaultSettings) records
  usable : LimitUsable (last.getD defaultSettings)
  within : records <+: added

theorem limitUsable_defaultSettings : LimitUsable defaultSettings := by
  intro limit found
  cases found
  exact .inr ⟨200, rfl⟩

theorem follows_empty : empty.Follows none [] [] :=
  ⟨holds_empty, limitUsable_defaultSettings, List.prefix_refl _⟩

namespace Follows

variable {last : Option Fields} {added : List Json}

theorem perform (follows : archive.Follows last added records) {operation : Operation}
    (admissible : operation.Admissible) :
    ∃ next kept, archive.perform operation = .ok next ∧
      next.Follows (operation.saved last) (operation.added added) kept := by
  obtain ⟨holds, usable, within⟩ := follows
  cases operation with
  | saveSettings stored =>
    obtain ⟨next, done, holds⟩ := holds.saveSettings admissible.1
    exact ⟨next, records, done, holds, admissible.2, within⟩
  | addHistory expression answer moment =>
    obtain ⟨kept, limit⟩ := exists_limited holds.stored usable
      (recordOf expression answer moment :: records)
    obtain ⟨next, done, holds⟩ := holds.addHistory expression answer admissible limit
    exact ⟨next, kept, done, holds, usable,
      (limited_isPrefix limit).trans (List.cons_prefix_cons.mpr ⟨rfl, within⟩)⟩
  | clearHistory =>
    obtain ⟨next, done, holds⟩ := holds.clearHistory
    exact ⟨next, [], done, holds, usable, List.nil_prefix⟩
  | clear =>
    exact ⟨cleared, [], rfl, holds_cleared, limitUsable_defaultSettings, List.nil_prefix⟩
  | readSettings =>
    refine ⟨archive, records, ?_, holds, usable, within⟩
    rw [Archive.perform, holds.settings]
    rfl
  | readHistory =>
    refine ⟨archive, records, ?_, holds, usable, within⟩
    rw [Archive.perform, holds.history]
    rfl

theorem performAll {operations : List Operation} (follows : archive.Follows last added records)
    (admissible : ∀ operation ∈ operations, operation.Admissible) :
    ∃ next kept, archive.performAll operations = .ok next ∧
      next.Follows (operations.foldl Operation.saved last)
        (operations.foldl Operation.added added) kept := by
  induction operations generalizing archive last added records with
  | nil => exact ⟨archive, records, rfl, follows⟩
  | cons operation operations ih =>
    obtain ⟨first, others⟩ := List.forall_mem_cons.mp admissible
    obtain ⟨between, kept, done, follows⟩ := follows.perform first
    obtain ⟨next, left, later, follows⟩ := ih follows others
    refine ⟨next, left, ?_, follows⟩
    rw [Archive.performAll, List.foldlM_cons, done]
    exact later

theorem settings (follows : archive.Follows last added records) :
    archive.settings = .ok (merged last) := by
  rw [follows.holds.settings]
  cases last with
  | none => exact congrArg Except.ok overlay_defaultSettings
  | some stored => rfl

end Follows

/-- After any operations the settings are those saved last, laid over the default ones, and the
history is the begin of the records added since the last clearing. Each of them holds the line and
the answer that it was added with. An added record comes first, before as many of the others as the
limit admits, and saving settings leaves the history. -/
theorem performAll_refines {operations : List Operation}
    (admissible : ∀ operation ∈ operations, operation.Admissible) :
    ∃ archive records, empty.performAll operations = .ok archive ∧
      archive.history = .ok (.array records) ∧ records <+: addedSinceClear operations ∧
      (∀ record ∈ records, ∃ expression answer moment,
        .addHistory expression answer moment ∈ operations ∧
          IsRecord record expression answer moment) ∧
      archive.settings = .ok (settingsAfter operations) ∧
      (∀ key, field? (settingsAfter operations) key =
        ((lastSaved operations).bind (field? · key)).or (field? defaultSettings key)) ∧
      (∀ expression answer moment, ReadsBack moment.epoch → ∀ limit : Int,
        field? (settingsAfter operations) limitKey = some (.integer limit) → 0 ≤ limit →
          ∃ next, archive.addHistory expression answer moment = .ok next ∧
            next.history = .ok (.array
              ((recordOf expression answer moment :: records).take limit.toNat)) ∧
            IsRecord (recordOf expression answer moment) expression answer moment ∧
            next.settings = archive.settings) ∧
      (∃ next, archive.clearHistory = .ok next ∧ next.history = .ok (.array []) ∧
        next.settings = archive.settings) ∧
      ∀ stored, Storable (.object stored) →
        ∃ next, archive.saveSettings stored = .ok next ∧ next.history = archive.history ∧
          next.settings = .ok (overlay defaultSettings stored) ∧
          ∀ key, field? (overlay defaultSettings stored) key =
            (field? stored key).or (field? defaultSettings key) := by
  obtain ⟨archive, records, done, follows⟩ := follows_empty.performAll admissible
  rw [← lastSaved, ← addedSinceClear] at follows
  have settings : archive.settings = .ok (settingsAfter operations) := follows.settings
  have holds := follows.holds
  refine ⟨archive, records, done, holds.history, follows.within, ?_, settings,
    field?_merged holds.stored, ?_, ?_, ?_⟩
  · intro record member
    rcases exists_of_mem_added (follows.within.subset member) with
      old | ⟨expression, answer, moment, added, rfl⟩
    · exact absurd old List.not_mem_nil
    · exact ⟨expression, answer, moment, added, isRecord_recordOf _ _ _⟩
  · intro expression answer moment back limit found positive
    have same := Except.ok.inj (holds.settings.symm.trans settings)
    have inForce : limitOf ((lastSaved operations).getD defaultSettings) = .integer limit := by
      rw [limitOf]
      exact congrArg (·.getD Json.null) ((congrArg (field? · limitKey) same).trans found)
    obtain ⟨next, added, after⟩ := holds.addHistory expression answer back
      (by rw [inForce, limited, if_pos positive])
    exact ⟨next, added, after.history, isRecord_recordOf _ _ _,
      after.settings.trans holds.settings.symm⟩
  · obtain ⟨next, emptied, after⟩ := holds.clearHistory
    exact ⟨next, emptied, after.history, after.settings.trans holds.settings.symm⟩
  · intro stored storable
    obtain ⟨next, saved, after⟩ := holds.saveSettings storable
    exact ⟨next, saved, after.history.trans holds.history.symm, after.settings,
      @field?_merged (some stored) storable⟩

/-- Two records under a limit of one. -/
theorem limitOfOne_refines :
    let stored : Fields := [(limitKey, .integer 1)]
    let moment : Moment := ⟨"2024-05-01 12:00:00", 1714557600.25⟩
    let operations : List Operation :=
      [.saveSettings stored, .addHistory "1" "ans = 1" moment, .addHistory "2" "ans = 2" moment]
    (∀ operation ∈ operations, operation.Admissible) ∧
      ∃ archive records, empty.performAll operations = .ok archive ∧
        archive.history = .ok (.array records) ∧
        records <+: [recordOf "2" "ans = 2" moment, recordOf "1" "ans = 1" moment] ∧
        archive.settings = .ok (overlay defaultSettings stored) ∧
        field? (overlay defaultSettings stored) limitKey = some (.integer 1) ∧
        field? (overlay defaultSettings stored) "precision" = some (.integer 4) := by
  intro stored moment operations
  have back : ReadsBack moment.epoch := by decide +kernel
  have storable : Storable (.object stored) := by
    refine .object (by decide) (by decide) fun f member => ?_
    rw [List.mem_singleton.mp member]
    exact .integer (by decide)
  have usable : LimitUsable stored := by
    intro limit found
    cases found
    exact .inr ⟨1, rfl⟩
  have admissible : ∀ operation ∈ operations, operation.Admissible := by
    intro operation member
    simp only [operations, List.mem_cons, List.not_mem_nil, or_false] at member
    rcases member with rfl | rfl | rfl
    · exact ⟨storable, usable⟩
    · exact back
    · exact back
  obtain ⟨archive, records, done, history, within, _, settings, values, _⟩ :=
    performAll_refines admissible
  exact ⟨admissible, archive, records, done, history, within, settings, values limitKey,
    values "precision"⟩

end Archive

end MatrixCalculator
