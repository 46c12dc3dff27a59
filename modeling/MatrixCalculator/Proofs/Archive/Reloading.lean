import MatrixCalculator.Proofs.Archive.Sections

/-! An archive that has been written is read back. The sections that it lacks are added behind the
others with their default values, and an archive that lacks none is written again as it was. -/
namespace MatrixCalculator

namespace Json

/-- A value whose whole numbers have no more digits than are converted, whose strings and keys are
texts, and whose objects give no key twice, at any depth. -/
inductive WellFormed : Json → Prop
  | null : WellFormed .null
  | bool (b : Bool) : WellFormed (.bool b)
  | integer {n : Int} (fits : (Nat.toDigits 10 n.natAbs).length ≤ Text.digitLimit) :
    WellFormed (.integer n)
  | double (x : Float) : WellFormed (.double x)
  | string (s : String) : WellFormed (.string s)
  | array {items : List Json} (all : ∀ item ∈ items, WellFormed item) : WellFormed (.array items)
  | object {fields : Fields} (distinct : (fields.map (·.1)).Nodup)
      (named : ∀ f ∈ fields, f.1.isWhole = true) (values : ∀ f ∈ fields, WellFormed f.2) :
    WellFormed (.object fields)

theorem WellFormed.storable {item : Json} (formed : WellFormed item) : Storable item := by
  induction formed with
  | null => exact .null
  | bool b => exact .bool b
  | integer fits => exact .integer fits
  | double x => exact .double (readsBack_all x)
  | string s => exact .string s
  | array _ all => exact .array all
  | object distinct named _ values => exact .object distinct named values

theorem putDefault_eq (key : Str) (value : Json) (fields : Fields) :
    putDefault key value fields =
      fields ++ if (field? fields key).isNone then [(key, value)] else [] := by
  cases found : field? fields key with
  | some old => simp [putDefault, found]
  | none =>
    have fresh : key ∉ fields.map (·.1) := by
      intro member
      obtain ⟨f, inside, rfl⟩ := List.mem_map.mp member
      simpa using List.lookup_eq_none_iff.mp found f inside
    simp [putDefault, found, put_of_fresh fresh]

theorem field?_append_other {fields added : Fields} {key : Str}
    (apart : ∀ f ∈ added, key ≠ f.1) : field? (fields ++ added) key = field? fields key := by
  have absent : added.lookup key = none :=
    List.lookup_eq_none_iff.mpr fun f member => by simpa using apart f member
  rw [field?, List.lookup_append, absent, Option.or_none, field?]

end Json

namespace Archive

open Json

variable {fields : Fields}

def missingSections (fields : Fields) : Fields :=
  emptySections.filter fun s => (field? fields s.1).isNone

theorem putDefaults_eq (fields : Fields) :
    putDefault historyKey (.array [])
      (putDefault settingsKey (.object defaultSettings) fields) = fields ++ missingSections fields := by
  have different : historyKey ≠ settingsKey := by decide
  rw [putDefault_eq settingsKey, putDefault_eq historyKey, field?_append_other, List.append_assoc]
  · rw [missingSections, emptySections, List.filter_cons, List.filter_cons, List.filter_nil]
    split_ifs <;> rfl
  · intro f member
    split at member
    · rw [List.mem_singleton.mp member]
      exact different
    · exact absurd member List.not_mem_nil

theorem sections_of_wellFormed (formed : WellFormed (.object fields)) :
    (ofSections fields).sections = .ok (fields ++ missingSections fields) := by
  rw [← putDefaults_eq]
  unfold sections ofSections
  dsimp only
  rw [read_text formed.storable]

theorem missingSections_eq_nil (settings : (field? fields settingsKey).isSome = true)
    (history : (field? fields historyKey).isSome = true) : missingSections fields = [] := by
  obtain ⟨stored, settings⟩ := Option.isSome_iff_exists.mp settings
  obtain ⟨past, history⟩ := Option.isSome_iff_exists.mp history
  simp [missingSections, emptySections, settings, history]

/-- Well-formed sections can be written. What is loaded from the archive is what has been written,
and the sections that it lacked. Written again, an archive with both of them has the same text. -/
theorem sections_of_written (formed : WellFormed (.object fields)) :
    store fields = .ok (ofSections fields) ∧
    (ofSections fields).sections = .ok (fields ++ missingSections fields) ∧
      ((field? fields settingsKey).isSome = true → (field? fields historyKey).isSome = true →
        ∃ loaded, (ofSections fields).sections = .ok loaded ∧
          store loaded = .ok (ofSections fields) ∧ ofSections loaded = ofSections fields) := by
  have written := store_eq formed.storable
  have loaded := sections_of_wellFormed formed
  refine ⟨written, loaded, fun settings history => ⟨_, loaded, ?_⟩⟩
  rw [missingSections_eq_nil settings history, List.append_nil]
  exact ⟨written, rfl⟩

/-- A history with one record and no settings. Its strings hold a quote, a backslash, line ends and
a character beyond the first plane. -/
def unsettled : Fields :=
  [("\"notes\"", .object [("empty", .array []), ("path", .string "a\\b\t\x01"), ("none", .null)]),
   (historyKey, .array [.object [("expression", .string "[1 2\n 3 4] * 𝒙"), ("count", .integer (-12)),
     ("epoch", .double 1.7e9), ("starred", .bool false)]])]

theorem wellFormed_unsettled : ∀ f ∈ unsettled, WellFormed f.2 := by
  have notes : WellFormed
      (.object [("empty", .array []), ("path", .string "a\\b\t\x01"), ("none", .null)]) := by
    refine .object (by decide) (by decide) ?_
    simp only [List.forall_mem_cons]
    exact ⟨.array (by simp), .string _, .null, by simp⟩
  have record : WellFormed (.object [("expression", .string "[1 2\n 3 4] * 𝒙"),
      ("count", .integer (-12)), ("epoch", .double 1.7e9), ("starred", .bool false)]) := by
    refine .object (by decide) (by decide) ?_
    simp only [List.forall_mem_cons]
    exact ⟨.string _, .integer (by decide), .double _, .bool false, by simp⟩
  simp only [unsettled, List.forall_mem_cons]
  exact ⟨notes, .array (List.forall_mem_singleton.mpr record), by simp⟩

theorem unsettled_reloaded :
    store unsettled = .ok (ofSections unsettled) ∧
      (ofSections unsettled).sections =
        .ok (unsettled ++ [(settingsKey, .object defaultSettings)]) ∧
      ∃ loaded, (ofSections (unsettled ++ [(settingsKey, .object [])])).sections = .ok loaded ∧
        ofSections loaded = ofSections (unsettled ++ [(settingsKey, .object [])]) := by
  have settled : WellFormed (.object (unsettled ++ [(settingsKey, .object [])])) := by
    refine .object (by decide) (by decide) fun f member => ?_
    rcases List.mem_append.mp member with given | last
    · exact wellFormed_unsettled f given
    · rw [List.mem_singleton.mp last]
      exact .object List.nodup_nil (by simp) (by simp)
  have formed : WellFormed (.object unsettled) :=
    .object (by decide) (by decide) wellFormed_unsettled
  obtain ⟨loaded, read, -, same⟩ := (sections_of_written settled).2.2 rfl rfl
  exact ⟨(sections_of_written formed).1, (sections_of_written formed).2.1, loaded, read, same⟩

end Archive

end MatrixCalculator
