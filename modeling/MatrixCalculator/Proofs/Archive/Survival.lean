import MatrixCalculator.Proofs.Archive.Sections
import Mathlib.Order.Defs.LinearOrder

/-! What an archive with a damaged text still does. A text that is no object of JSON counts as the
empty archive, but the sections of an object are taken as they are. So each operation has its own
condition on the sections that it uses, and exactly under it the operation succeeds. What is written
must not have half of a surrogate pair in it, wherever that may stand. -/
namespace MatrixCalculator.Archive

open Json

variable {archive : Archive} {fields settings : Fields} {records kept : List Json}
  {pair stored limit record : Json}

/-- The text has a whole number with more digits than are converted. -/
def Oversized (archive : Archive) : Prop :=
  ∃ text, archive.text = some text ∧ Json.read text.toList = .error .oversizedInteger

section Sections

theorem sections_ok_iff : (∃ fields, archive.sections = .ok fields) ↔ ¬archive.Oversized := by
  unfold sections Oversized
  cases archive.text with
  | none => simp
  | some text =>
    simp only [Option.some.injEq, exists_eq_left']
    split
    · next fields read => simp [read]
    · next read => simp [read]
    · next _ fits => exact ⟨fun _ => fits, fun _ => ⟨_, rfl⟩⟩

/-- A text that is no object of JSON counts as the empty archive. -/
theorem sections_of_no_object (fits : ¬archive.Oversized)
    (none : ∀ text fields, archive.text = some text →
      Json.read text.toList ≠ .ok (.object fields)) :
    archive.sections = .ok emptySections := by
  unfold sections
  cases given : archive.text with
  | none => rfl
  | some text =>
    dsimp only
    split
    · next fields read => exact absurd read (none text fields given)
    · next read => exact absurd ⟨text, given, read⟩ fits
    · rfl

end Sections

section Settings

/-- What can be the key of a pair: everything but arrays and objects. -/
def IsKey (key : Json) : Prop :=
  (∀ items, key ≠ .array items) ∧ ∀ fields, key ≠ .object fields

def IsPair (pair : Json) : Prop :=
  (∃ key value, pair = .array [key, value] ∧ IsKey key) ∨ (∃ f g, pair = .object [f, g]) ∨
    ∃ s first second, pair = .string s ∧ s.points = [first, second]

/-- What can be laid over the default settings: an object, a list of pairs, or an empty text. -/
def SettingsUsable (stored : Json) : Prop :=
  (∃ fields, stored = .object fields) ∨
    (∃ pairs, stored = .array pairs ∧ ∀ pair ∈ pairs, IsPair pair) ∨ stored = .string ""

theorem settingOf_ok_iff : (∃ given, settingOf pair = .ok given) ↔ IsPair pair := by
  constructor
  · rintro ⟨given, done⟩
    unfold settingOf at done
    split at done
    · next key value => exact .inl ⟨_, value, rfl, by simp [IsKey]⟩
    · contradiction
    · contradiction
    · next key value _ array object => exact .inl ⟨key, value, rfl, array, object⟩
    · exact .inr (.inl ⟨_, _, rfl⟩)
    · split at done
      · next first second shape => exact .inr (.inr ⟨_, first, second, rfl, shape⟩)
      · contradiction
    · contradiction
  · rintro (⟨key, value, rfl, array, object⟩ | ⟨f, g, rfl⟩ | ⟨s, first, second, rfl, shape⟩)
    · cases key with
      | array items => exact absurd rfl (array items)
      | object fields => exact absurd rfl (object fields)
      | _ => exact ⟨_, rfl⟩
    · exact ⟨_, rfl⟩
    · exact ⟨[(.ofPoints [first], .string (.ofPoints [second]))], by simp [settingOf, shape]⟩

theorem mapM_ok_iff {β γ ε : Type} {f : β → Except ε γ} {items : List β} :
    (∃ images, items.mapM f = .ok images) ↔ ∀ item ∈ items, ∃ image, f item = .ok image := by
  induction items with
  | nil => exact ⟨fun _ item member => absurd member List.not_mem_nil, fun _ => ⟨[], rfl⟩⟩
  | cons item items ih =>
    rw [List.forall_mem_cons, ← ih, List.mapM_cons]
    constructor
    · rintro ⟨images, done⟩
      cases first : f item with
      | error fault => rw [first] at done; contradiction
      | ok image =>
        cases others : items.mapM f with
        | error fault => rw [first, others] at done; contradiction
        | ok rest => exact ⟨⟨image, rfl⟩, rest, rfl⟩
    · rintro ⟨⟨image, first⟩, rest, others⟩
      exact ⟨image :: rest, by rw [first, others]; rfl⟩

theorem settingsOf_ok_iff (found : field? fields settingsKey = some stored) :
    (∃ settings, settingsOf fields = .ok settings) ↔ SettingsUsable stored := by
  unfold settingsOf
  rw [found]
  cases stored with
  | object fields => simp [SettingsUsable]
  | array pairs =>
    have usable : SettingsUsable (.array pairs) ↔ ∀ pair ∈ pairs, IsPair pair := by
      simp [SettingsUsable]
    have each : (∀ pair ∈ pairs, IsPair pair) ↔
        ∀ pair ∈ pairs, ∃ given, settingOf pair = .ok given :=
      forall₂_congr fun pair _ => settingOf_ok_iff.symm
    rw [usable, each, ← mapM_ok_iff]
    dsimp only
    cases pairs.mapM settingOf with
    | error fault => exact ⟨fun ⟨_, done⟩ => by contradiction, fun ⟨_, done⟩ => by contradiction⟩
    | ok given => exact ⟨fun _ => ⟨_, rfl⟩, fun _ => ⟨_, rfl⟩⟩
  | string s =>
    by_cases empty : s = .whole ""
    · subst empty
      simp [SettingsUsable]
    · simp [SettingsUsable, empty]
  | _ => simp [SettingsUsable]

theorem isSome_overlay {key : Str} {base : Fields} (given : (field? base key).isSome = true)
    (upper : Fields) : (field? (overlay base upper) key).isSome = true := by
  induction upper generalizing base with
  | nil => exact given
  | cons f upper ih => exact ih (isSome_put given f.1 f.2)

/-- Settings that can be read have a value for every key that the default settings have. -/
theorem isSome_settings (merged : settingsOf fields = .ok settings) :
    ∀ key ∈ defaultSettings.map (·.1), (field? settings key).isSome = true := by
  intro key member
  have given : (field? defaultSettings key).isSome = true := by
    simp only [defaultSettings, List.map_cons, List.map_nil, List.mem_cons, List.not_mem_nil,
      or_false] at member
    rcases member with rfl | rfl | rfl | rfl | rfl <;> rfl
  unfold settingsOf at merged
  split at merged
  · cases merged
    exact given
  · cases merged
    exact isSome_overlay given _
  · next pairs _ =>
    cases read : pairs.mapM settingOf with
    | error fault => rw [read] at merged; contradiction
    | ok settings =>
      rw [read] at merged
      cases merged
      exact isSome_overlay given _
  · cases merged
    exact given
  · contradiction

end Settings

section Limit

/-- What limits a history: a whole number, a truth value, or nothing. -/
def IsLimit (limit : Json) : Prop :=
  limit = .null ∨ (∃ b, limit = .bool b) ∨ ∃ n, limit = .integer n

/-- The limit keeps a new record in front of so many others. -/
def Admits : Json → Nat → Prop
  | .null, _ => True
  | .bool b, _ => b = true
  | .integer n, count => 0 < n ∨ n < 0 ∧ n.natAbs ≤ count
  | _, _ => False

theorem limited_ok_iff : (∃ kept, limited limit records = .ok kept) ↔ IsLimit limit := by
  cases limit <;> simp [limited, IsLimit]

/-- The new record stands in front if the limit admits it, and else nothing is kept. -/
theorem head?_limited (done : limited limit (record :: records) = .ok kept) :
    kept.head? = some record ↔ Admits limit records.length := by
  cases limit with
  | null =>
    cases done
    simp [Admits]
  | bool b =>
    cases done
    cases b <;> simp [Admits]
  | integer n =>
    cases done
    rcases lt_trichotomy n 0 with negative | rfl | positive
    · rw [if_neg (by omega)]
      rcases Nat.lt_or_ge records.length n.natAbs with few | enough
      · have none : (record :: records).length - n.natAbs = 0 := by
          rw [List.length_cons]
          omega
        have refused : ¬Admits (.integer n) records.length := by
          unfold Admits
          omega
        rw [none, List.take_zero]
        simp [refused]
      · obtain ⟨k, some⟩ : ∃ k, (record :: records).length - n.natAbs = k + 1 :=
          ⟨records.length - n.natAbs, by rw [List.length_cons]; omega⟩
        rw [some]
        simp [Admits, negative, enough]
    · simp [Admits]
    · obtain ⟨k, some⟩ : ∃ k, n.toNat = k + 1 := ⟨n.toNat - 1, by omega⟩
      rw [if_pos positive.le, some]
      simp [Admits, positive]
  | _ => contradiction

end Limit

section Operations

theorem addHistory_ok_iff {past : Json} (loaded : archive.sections = .ok fields)
    (found : field? fields historyKey = some past) (expression answer : String) (moment : Moment) :
    (∃ next, archive.addHistory expression answer moment = .ok next) ↔
      ∃ settings records, settingsOf fields = .ok settings ∧ past = .array records ∧
        IsLimit ((field? settings limitKey).getD .null) ∧
        ∀ kept, limited ((field? settings limitKey).getD .null)
            (recordOf expression answer moment :: records) = .ok kept →
          Whole (.object (put historyKey (.array kept) fields)) := by
  constructor
  · rintro ⟨next, done⟩
    obtain ⟨same, settings, records, kept, loaded', merged, found', limited, whole, -⟩ :=
      exists_of_addHistory done
    obtain rfl := Except.ok.inj (loaded.symm.trans loaded')
    refine ⟨settings, records, merged, Option.some.inj (found.symm.trans found'),
      limited_ok_iff.mp ⟨kept, limited⟩, fun left again => ?_⟩
    cases limited.symm.trans again
    exact whole
  · rintro ⟨settings, records, merged, rfl, limit, whole⟩
    obtain ⟨kept, done⟩ := limited_ok_iff.mpr limit
    obtain ⟨next, added, -⟩ := sections_addHistory expression answer moment loaded merged found done
      (whole kept done)
    exact ⟨next, added⟩

/-- A half of a surrogate pair in what is kept stops the writer, and only what stands before it is
left of the archive. -/
theorem addHistory_of_not_whole (loaded : archive.sections = .ok fields)
    (merged : settingsOf fields = .ok settings)
    (found : field? fields historyKey = some (.array records)) {expression answer : String}
    {moment : Moment} (limited : limited ((field? settings limitKey).getD .null)
      (recordOf expression answer moment :: records) = .ok kept)
    (broken : ¬Whole (.object (put historyKey (.array kept) fields))) :
    ∃ left, torn 0 (.object (put historyKey (.array kept) fields)) = some left ∧
      archive.addHistory expression answer moment =
        .error (.unpairedSurrogate (String.ofList left)) := by
  obtain ⟨left, stopped⟩ := Option.ne_none_iff_exists'.mp fun none =>
    broken ((torn_eq_none_iff 0).mp none)
  refine ⟨left, stopped, ?_⟩
  rw [addHistory_eq expression answer moment loaded merged found, limited]
  show store _ = _
  rw [store, stopped]

/-- What a record is put in front of, and what is left of it. -/
theorem history_addHistory {expression answer : String} {moment : Moment} {next : Archive}
    (loaded : archive.sections = .ok fields) (merged : settingsOf fields = .ok settings)
    (found : field? fields historyKey = some (.array records))
    (done : archive.addHistory expression answer moment = .ok next) :
    ∃ kept, limited ((field? settings limitKey).getD .null)
        (recordOf expression answer moment :: records) = .ok kept ∧
      next.history = .ok (.array kept) ∧ next.settings = .ok settings := by
  obtain ⟨same, settings', records', kept, loaded', merged', found', limited, whole, -⟩ :=
    exists_of_addHistory done
  obtain rfl := Except.ok.inj (loaded.symm.trans loaded')
  obtain rfl := Except.ok.inj (merged.symm.trans merged')
  cases found.symm.trans found'
  obtain ⟨next', done', after⟩ :=
    sections_addHistory expression answer moment loaded merged found limited whole
  obtain rfl := Except.ok.inj (done.symm.trans done')
  refine ⟨kept, limited, history_eq after (field?_put_self _ _ _), ?_⟩
  rw [settings_eq after, settingsOf_put_history, merged]

end Operations

/-- Loading fails only on a whole number with too many digits, and a text that is no object counts
as the empty archive. Then the settings can be read exactly if their section can be laid over the
default ones, and have all of their keys. The history is what its section holds. A record can be
added exactly if that is a list, the limit is one, and there is no half of a surrogate pair in what
is written, and stands in front if the limit admits it. Before a half the writer stops. -/
theorem operations_survive_iff (archive : Archive) (expression answer : String) (moment : Moment) :
    ((∃ fields, archive.sections = .ok fields) ↔ ¬archive.Oversized) ∧
    (¬archive.Oversized →
      (∀ text fields, archive.text = some text → Json.read text.toList ≠ .ok (.object fields)) →
        archive.sections = .ok emptySections) ∧
    ∀ fields, archive.sections = .ok fields → ∃ stored past,
      field? fields settingsKey = some stored ∧ field? fields historyKey = some past ∧
      ((∃ settings, archive.settings = .ok settings) ↔ SettingsUsable stored) ∧
      (∀ settings, archive.settings = .ok settings →
        ∀ key ∈ defaultSettings.map (·.1), (field? settings key).isSome = true) ∧
      archive.history = .ok past ∧
      ((∃ next, archive.addHistory expression answer moment = .ok next) ↔
        ∃ settings records, archive.settings = .ok settings ∧ past = .array records ∧
          IsLimit ((field? settings limitKey).getD .null) ∧
          ∀ kept, limited ((field? settings limitKey).getD .null)
              (recordOf expression answer moment :: records) = .ok kept →
            Whole (.object (put historyKey (.array kept) fields))) ∧
      (∀ settings records kept, archive.settings = .ok settings → past = .array records →
        limited ((field? settings limitKey).getD .null)
          (recordOf expression answer moment :: records) = .ok kept →
        ¬Whole (.object (put historyKey (.array kept) fields)) →
          ∃ left, torn 0 (.object (put historyKey (.array kept) fields)) = some left ∧
            archive.addHistory expression answer moment =
              .error (.unpairedSurrogate (String.ofList left))) ∧
      ∀ settings records next, archive.settings = .ok settings → past = .array records →
        archive.addHistory expression answer moment = .ok next →
          ∃ kept, next.history = .ok (.array kept) ∧ next.settings = .ok settings ∧
            kept <+: recordOf expression answer moment :: records ∧
            (kept.head? = some (recordOf expression answer moment) ↔
              Admits ((field? settings limitKey).getD .null) records.length) := by
  refine ⟨sections_ok_iff, sections_of_no_object, fun fields loaded => ?_⟩
  have complete := complete_of_sections loaded
  obtain ⟨stored, settings⟩ := Option.isSome_iff_exists.mp complete.settings
  obtain ⟨past, history⟩ := Option.isSome_iff_exists.mp complete.history
  rw [settings_eq loaded]
  refine ⟨stored, past, settings, history, settingsOf_ok_iff settings,
    fun _ merged => isSome_settings merged, history_eq loaded history,
    addHistory_ok_iff loaded history expression answer moment, ?_, ?_⟩
  · rintro settings records kept merged rfl limited broken
    exact addHistory_of_not_whole loaded merged history limited broken
  · rintro settings records next merged rfl done
    obtain ⟨kept, limited, after, same⟩ := history_addHistory loaded merged history done
    exact ⟨kept, after, same, limited_isPrefix limited, head?_limited limited⟩

/-- A history that is null is not a list, and no record can be added to it. -/
theorem nullHistory_unusable :
    let archive : Archive := ⟨some "\x7b\n  \"history\": null\n\x7d"⟩
    archive.history = .ok .null ∧
      archive.addHistory "1" "ans = 1" ⟨"2024-01-02 03:04:05", 0⟩ = .error .historyNotArray := by
  intro archive
  have storable : Storable (.object [(historyKey, .null)]) :=
    .object (by decide) (by decide) fun f member => by
      rw [List.mem_singleton.mp member]
      exact .null
  have loaded : archive.sections =
      .ok [(historyKey, .null), (settingsKey, .object defaultSettings)] := by
    have text : archive = ofSections [(historyKey, .null)] := by decide
    rw [text, sections, ofSections]
    dsimp only
    rw [read_text storable]
    rfl
  have found : field? [(historyKey, .null), (settingsKey, .object defaultSettings)] historyKey =
    some Json.null := rfl
  refine ⟨history_eq loaded found, ?_⟩
  rw [addHistory, loaded]
  rfl

/-- A history of one string, which is half of a surrogate pair. -/
def halfHistory : Archive :=
  ⟨some "\x7b\"history\": [\"\\ud800\"]\x7d"⟩

theorem sections_halfHistory : halfHistory.sections =
    .ok [(historyKey, .array [.string (.broken [.half 0] rfl)]),
      (settingsKey, .object defaultSettings)] := by
  have escape : escapeFrom ['u', 'd', '8', '0', '0', '"', ']', '}'] =
      .ok (.half 0, ['"', ']', '}']) := by decide +kernel
  have item := valueFrom_string (pointsFrom_escape escape (pointsFrom_quote [']', '}']))
  have items : itemsFrom ['"', '\\', 'u', 'd', '8', '0', '0', '"', ']', '}'] =
      .ok ([.string (.ofPoints [.half 0])], ['}']) := itemsFrom_last item rfl
  have array := valueFrom_array (fun _ closed => by cases closed) items
  have key := @pointsFrom_quoted historyKey rfl
    [':', ' ', '[', '"', '\\', 'u', 'd', '8', '0', '0', '"', ']', '}']
  have quote (rest : List Char) : skipSpace ('"' :: rest) = '"' :: rest := skipSpace_cons rfl rest
  have fields := @fieldsFrom_field _ _ _ _ [] _ _ _ (quote _) key rfl array
  have object := valueFrom_object (fun _ closed => by cases (quote _).symm.trans closed) fields
  rw [← skipSpace_cons (show isSpace '{' = false from rfl)] at object
  have text : "\x7b\"history\": [\"\\ud800\"]\x7d".toList =
      '{' :: '"' :: (historyKey.points.flatMap spelled ++
        ['"', ':', ' ', '[', '"', '\\', 'u', 'd', '8', '0', '0', '"', ']', '}']) := by
    decide +kernel
  rw [sections, halfHistory]
  dsimp only
  rw [text, read_eq_ok object rfl]
  rfl

/-- The new record goes out, and then the writer stops. -/
theorem halfHistory_stops :
    halfHistory.addHistory "1" "ans = 1" ⟨"2024-01-02 03:04:05", 0⟩ = .error (.unpairedSurrogate
      ("\x7b\n  \"history\": [\n    \x7b\n      \"expression\": \"1\",\n" ++
        "      \"answer\": \"ans = 1\",\n      \"timestamp\": \"2024-01-02 03:04:05\",\n" ++
        "      \"epoch\": 0.0\n    \x7d")) := by
  have limit (records : List Json) (few : records.length ≤ 200) :
      limited ((field? (overlay defaultSettings defaultSettings) limitKey).getD .null) records =
        .ok records :=
    congrArg Except.ok (List.take_of_length_le few)
  rw [addHistory_eq _ _ _ sections_halfHistory rfl rfl, limit _ (by simp), Except.bind]
  decide +kernel

end MatrixCalculator.Archive
