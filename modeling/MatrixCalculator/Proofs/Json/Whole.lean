import MatrixCalculator.Proofs.Json.Doubles
import MatrixCalculator.Proofs.Json.Loadable

/-! Values without halves of surrogate pairs. The writer does not stop in them, so of what comes out
of a text exactly they can be stored and come back. -/
namespace MatrixCalculator.Json

/-- All strings and keys are texts. -/
inductive Whole : Json → Prop
  | null : Whole .null
  | bool (b : Bool) : Whole (.bool b)
  | integer (n : Int) : Whole (.integer n)
  | double (x : Float) : Whole (.double x)
  | string (s : String) : Whole (.string s)
  | array {items : List Json} (all : ∀ item ∈ items, Whole item) : Whole (.array items)
  | object {fields : Fields} (named : ∀ f ∈ fields, f.1.isWhole = true)
      (values : ∀ f ∈ fields, Whole f.2) : Whole (.object fields)

section Objects

variable {fields : Fields} {items : List Json} {value : Json}

theorem Whole.put (object : Whole (.object fields)) (whole : Whole value) {key : Str}
    (named : key.isWhole = true) : Whole (.object (put key value fields)) := by
  obtain ⟨⟩ | ⟨⟩ | ⟨⟩ | ⟨⟩ | ⟨⟩ | ⟨⟩ | ⟨names, values⟩ := object
  refine .object (fun f member => ?_) fun f member => ?_
  · rcases mem_put member with rfl | old
    · exact named
    · exact names f old
  · rcases mem_put member with rfl | old
    · exact whole
    · exact values f old

theorem Whole.of_field? (object : Whole (.object fields)) {key : Str}
    (found : field? fields key = some value) : Whole value := by
  obtain ⟨⟩ | ⟨⟩ | ⟨⟩ | ⟨⟩ | ⟨⟩ | ⟨⟩ | ⟨names, values⟩ := object
  exact values (key, value) (mem_of_field? found)

theorem Whole.of_array (array : Whole (.array items)) : ∀ item ∈ items, Whole item := by
  obtain ⟨⟩ | ⟨⟩ | ⟨⟩ | ⟨⟩ | ⟨⟩ | ⟨all⟩ | ⟨⟩ := array
  exact all

end Objects

/-- What has come out of a text can be stored exactly if it is whole. -/
theorem storable_iff {item : Json} : Storable item ↔ Loadable item ∧ Whole item := by
  constructor
  · intro storable
    induction storable with
    | null => exact ⟨.null, .null⟩
    | bool b => exact ⟨.bool b, .bool b⟩
    | integer fits => exact ⟨.integer fits, .integer _⟩
    | double => exact ⟨.double _, .double _⟩
    | string s => exact ⟨.string s, .string s⟩
    | array _ ih => exact ⟨.array fun item h => (ih item h).1, .array fun item h => (ih item h).2⟩
    | object distinct named _ ih =>
      exact ⟨.object distinct fun f h => (ih f h).1, .object named fun f h => (ih f h).2⟩
  · rintro ⟨loadable, whole⟩
    induction loadable with
    | null => exact .null
    | bool b => exact .bool b
    | integer fits => exact .integer fits
    | double x => exact .double (readsBack_all x)
    | string s =>
      cases whole
      exact .string _
    | array _ ih =>
      cases whole with
      | array all => exact .array fun item h => ih item h (all item h)
    | object distinct _ ih =>
      cases whole with
      | object named values => exact .object distinct named fun f h => ih f h (values f h)

section Tearing

variable {level : Nat} {opening : List Char} {item value : Json} {items : List Json} {key : Str}
  {fields : Fields}

theorem tornItems_cons : tornItems level opening (item :: items) = none ↔
    torn level item = none ∧ tornItems level (',' :: newLine level) items = none := by
  cases item with
  | string s => cases s <;> simp [tornItems, torn]
  | _ =>
    rw [tornItems]
    · split <;> simp [*]
    · simp

theorem tornFields_cons : tornFields level opening ((key, value) :: fields) = none ↔
    key.isWhole = true ∧ torn level value = none ∧
      tornFields level (',' :: newLine level) fields = none := by
  cases key with
  | broken points torn => simp [tornFields, Str.isWhole]
  | whole s =>
    rw [tornFields]
    · split <;> simp [Str.isWhole, *]
    · simp

theorem tornItems_eq_none (all : ∀ item ∈ items, torn level item = none) :
    tornItems level opening items = none := by
  induction items generalizing opening with
  | nil => rfl
  | cons item items ih =>
    obtain ⟨first, others⟩ := List.forall_mem_cons.mp all
    exact tornItems_cons.mpr ⟨first, ih others⟩

theorem tornFields_eq_none (named : ∀ f ∈ fields, f.1.isWhole = true)
    (values : ∀ f ∈ fields, torn level f.2 = none) : tornFields level opening fields = none := by
  induction fields generalizing opening with
  | nil => rfl
  | cons f fields ih =>
    obtain ⟨name, named⟩ := List.forall_mem_cons.mp named
    obtain ⟨value, values⟩ := List.forall_mem_cons.mp values
    exact tornFields_cons.mpr ⟨name, value, ih named values⟩

theorem Whole.torn_eq_none (whole : Whole item) (level : Nat) : torn level item = none := by
  induction whole generalizing level with
  | array _ ih => exact tornItems_eq_none fun item h => ih item h (level + 1)
  | object named _ ih => exact tornFields_eq_none named fun f h => ih f h (level + 1)
  | _ => rfl

mutual

theorem whole_of_torn (level : Nat) : (item : Json) → torn level item = none → Whole item
  | .null, _ => .null
  | .bool b, _ => .bool b
  | .integer n, _ => .integer n
  | .double x, _ => .double x
  | .string (.whole s), _ => .string s
  | .array items, untorn => .array (whole_of_tornItems (level + 1) _ items untorn)
  | .object fields, untorn =>
    have all := whole_of_tornFields (level + 1) _ fields untorn
    .object (fun f h => (all f h).1) fun f h => (all f h).2

theorem whole_of_tornItems (level : Nat) (opening : List Char) :
    (items : List Json) → tornItems level opening items = none → ∀ item ∈ items, Whole item
  | [], _ => nofun
  | item :: items, untorn =>
    have ⟨first, later⟩ := tornItems_cons.mp untorn
    List.forall_mem_cons.mpr ⟨whole_of_torn level item first, whole_of_tornItems level _ items later⟩

theorem whole_of_tornFields (level : Nat) (opening : List Char) :
    (fields : Fields) → tornFields level opening fields = none →
      ∀ f ∈ fields, f.1.isWhole = true ∧ Whole f.2
  | [], _ => nofun
  | (_, value) :: fields, untorn =>
    have ⟨named, first, later⟩ := tornFields_cons.mp untorn
    List.forall_mem_cons.mpr
      ⟨⟨named, whole_of_torn level value first⟩, whole_of_tornFields level _ fields later⟩

end

/-- The writer goes through exactly the values without halves. -/
theorem torn_eq_none_iff (level : Nat) : torn level item = none ↔ Whole item :=
  ⟨whole_of_torn level item, fun whole => whole.torn_eq_none level⟩

end Tearing

end MatrixCalculator.Json
