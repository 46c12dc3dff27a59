import MatrixCalculator.Proofs.Json.Plain

/-! What comes out of a text. A whole number has no more digits than are read again, and an object
gives no key twice. -/
namespace MatrixCalculator.Json

variable {β γ : Type} {fields before : Fields} {key : Str} {value : Json}

section Objects

theorem map_put (key : Str) (value : Json) (fields : Fields) :
    (put key value fields).map (·.1) =
      if key ∈ fields.map (·.1) then fields.map (·.1) else fields.map (·.1) ++ [key] := by
  induction fields with
  | nil => rfl
  | cons f rest ih =>
    obtain ⟨other, kept⟩ := f
    rw [put]
    by_cases same : other = key
    · rw [if_pos same, if_pos (by simp [same])]
      simp [same]
    · rw [if_neg same, List.map_cons, ih]
      have apart : key ≠ other := Ne.symm same
      by_cases inside : key ∈ rest.map (·.1)
      · simp [inside]
      · simp [inside, apart]

theorem nodup_put (distinct : (fields.map (·.1)).Nodup) :
    ((put key value fields).map (·.1)).Nodup := by
  rw [map_put]
  split
  · exact distinct
  · next fresh =>
    refine List.nodup_append.mpr ⟨distinct, by simp, ?_⟩
    intro other member last same
    rw [List.mem_singleton.mp same]
    rintro rfl
    exact fresh member

theorem mem_put {f : Str × Json} (member : f ∈ put key value fields) :
    f = (key, value) ∨ f ∈ fields := by
  induction fields with
  | nil => exact .inl (List.mem_singleton.mp member)
  | cons g rest ih =>
    rw [put] at member
    split at member
    · next same =>
      rcases List.mem_cons.mp member with rfl | later
      · exact .inl (Prod.ext same rfl)
      · exact .inr (List.mem_cons_of_mem _ later)
    · rcases List.mem_cons.mp member with rfl | later
      · exact .inr List.mem_cons_self
      · exact (ih later).imp_right (List.mem_cons_of_mem _)

theorem mem_of_field? (found : field? fields key = some value) : (key, value) ∈ fields := by
  obtain ⟨front, back, rfl, -⟩ := List.lookup_eq_some_iff.mp found
  exact List.mem_append_right _ List.mem_cons_self

inductive Loadable : Json → Prop
  | null : Loadable .null
  | bool (b : Bool) : Loadable (.bool b)
  | integer {n : Int} (fits : (Nat.toDigits 10 n.natAbs).length ≤ Text.digitLimit) :
    Loadable (.integer n)
  | double (x : Float) : Loadable (.double x)
  | string (s : Str) : Loadable (.string s)
  | array {items : List Json} (all : ∀ item ∈ items, Loadable item) : Loadable (.array items)
  | object {fields : Fields} (distinct : (fields.map (·.1)).Nodup)
      (values : ∀ f ∈ fields, Loadable f.2) : Loadable (.object fields)

theorem Loadable.put (object : Loadable (.object fields)) (loadable : Loadable value)
    (key : Str) : Loadable (.object (put key value fields)) := by
  obtain ⟨⟩ | ⟨⟩ | ⟨⟩ | ⟨⟩ | ⟨⟩ | ⟨⟩ | ⟨distinct, values⟩ := object
  refine .object (nodup_put distinct) fun f member => ?_
  rcases mem_put member with rfl | old
  · exact loadable
  · exact values f old

theorem Loadable.putDefault (object : Loadable (.object fields)) (loadable : Loadable value)
    (key : Str) : Loadable (.object (putDefault key value fields)) := by
  unfold Json.putDefault
  split
  · exact object
  · exact object.put loadable key

theorem Loadable.of_field? (object : Loadable (.object fields))
    (found : field? fields key = some value) : Loadable value := by
  obtain ⟨⟩ | ⟨⟩ | ⟨⟩ | ⟨⟩ | ⟨⟩ | ⟨⟩ | ⟨distinct, values⟩ := object
  exact values (key, value) (mem_of_field? found)

theorem Loadable.of_array {items : List Json} (array : Loadable (.array items)) :
    ∀ item ∈ items, Loadable item := by
  obtain ⟨⟩ | ⟨⟩ | ⟨⟩ | ⟨⟩ | ⟨⟩ | ⟨all⟩ | ⟨⟩ := array
  exact all

theorem Loadable.empty : Loadable (.object []) :=
  .object List.nodup_nil fun _ member => absurd member List.not_mem_nil

end Objects

section Plain

theorem length_toDigits_le {cs : List Char} (some : cs ≠ []) :
    (Nat.toDigits 10 (Text.digitsValue cs)).length ≤ cs.length :=
  (Nat.length_toDigits_le_iff (by decide) (List.length_pos_iff.mpr some)).mpr
    (Decimal.digitsValue_lt cs)

variable {input rest : List Char} {item : Json}

theorem loadable_signedNumber {negative : Bool}
    (read : signedNumber negative input = .ok (item, rest)) : Loadable item := by
  unfold signedNumber at read
  dsimp only at read
  split at read
  · contradiction
  · next some =>
    split at read
    · split at read
      · contradiction
      · next short =>
        cases read
        refine .integer (Nat.le_trans ?_ (Nat.le_of_not_lt short))
        have size : (if negative = true then -(Text.digitsValue (numeral input).1 : Int)
            else Text.digitsValue (numeral input).1).natAbs =
              Text.digitsValue (numeral input).1 := by
          split
          · exact (Int.natAbs_neg _).trans (Int.natAbs_natCast _)
          · exact Int.natAbs_natCast _
        rw [size]
        exact length_toDigits_le some
    · cases read
      exact .double _

theorem loadable_word : ∀ w ∈ words, Loadable w.2 := by
  intro w member
  simp only [words, List.mem_cons, List.not_mem_nil, or_false] at member
  rcases member with rfl | rfl | rfl | rfl | rfl | rfl
  · exact .null
  · exact .bool true
  · exact .bool false
  · exact .double _
  · exact .double _
  · exact .double _

theorem loadable_plain (read : plainFrom input = .ok (item, rest)) : Loadable item := by
  cases found : word? input with
  | none =>
    rw [plainFrom_number found, numberFrom_eq] at read
    exact loadable_signedNumber read
  | some w =>
    obtain ⟨word, value⟩ := w
    rw [plainFrom_word found] at read
    split at read
    · cases read
      exact loadable_word _ (List.mem_of_find?_eq_some found)
    · contradiction

end Plain

section Values

def Yields (property : β → Prop) (result : Except ReadFault β) : Prop :=
  ∀ b, result = .ok b → property b

variable {property : β → Prop} {other : γ → Prop}

theorem Yields.ok {b : β} (holds : property b) : Yields property (.ok b) := fun _ same =>
  Except.ok.inj same ▸ holds

theorem Yields.error (fault : ReadFault) : Yields property (.error fault) := fun _ same => by
  contradiction

theorem Yields.bind {first : Except ReadFault β} {next : β → Except ReadFault γ}
    (holds : Yields property first) (later : ∀ b, property b → Yields other (next b)) :
    Yields other (first >>= next) := by
  cases first with
  | error fault => exact .error fault
  | ok b => exact later b (holds b rfl)

theorem Yields.anything (result : Except ReadFault β) : Yields (fun _ => True) result :=
  fun _ _ => trivial

variable {n : Nat}

/-- The readers of values give loadable ones from texts that are no longer than a bound. -/
def ValuesLoadable (n : Nat) : Prop :=
  ∀ input : List Char, input.length ≤ n → Yields (fun p => Loadable p.item) (readValue input)

def ItemsLoadable (n : Nat) : Prop :=
  ∀ input : List Char, input.length ≤ n →
    Yields (fun p => ∀ item ∈ p.item, Loadable item) (readItems input)

def FieldsLoadable (n : Nat) : Prop :=
  ∀ (input : List Char) (before : Fields), input.length ≤ n → Loadable (.object before) →
    Yields (fun p => Loadable (.object p.item)) (readFields before input)

theorem yields_readPlain (input : List Char) :
    Yields (fun p => Loadable p.item) (readPlain input) := by
  intro p read
  have done : plainFrom input = .ok (p.item, p.rest) := by
    rw [plainFrom, read]
    rfl
  exact loadable_plain done

theorem valuesLoadable (items : ∀ k < n, ItemsLoadable k) (fields : ∀ k < n, FieldsLoadable k) :
    ValuesLoadable n := by
  intro input short
  unfold readValue
  split
  · refine (Yields.anything _).bind fun characters _ => .ok ?_
    exact .string _
  · next rest =>
    split
    · exact .ok (.array fun _ member => absurd member List.not_mem_nil)
    · refine (items rest.length short rest (Nat.le_refl _)).bind fun p all => .ok ?_
      exact .array all
  · next rest =>
    split
    · exact .ok .empty
    · refine (fields rest.length short rest [] (Nat.le_refl _) .empty).bind fun p all => .ok ?_
      exact all
  · exact yields_readPlain _

theorem itemsLoadable (values : ValuesLoadable n) (items : ∀ k < n, ItemsLoadable k) :
    ItemsLoadable n := by
  intro input short
  have within := length_skipSpace_le input
  unfold readItems
  refine (values (skipSpace input) (by omega)).bind fun p loadable => ?_
  obtain ⟨item, more, fewer⟩ := p
  dsimp only
  split
  · refine .ok ?_
    simpa using loadable
  · next rest spaced =>
    have left := length_skipSpace_le more
    have shorter : rest.length < n := by
      rw [spaced, List.length_cons] at left
      omega
    refine (items _ shorter rest (Nat.le_refl _)).bind fun p all => .ok ?_
    exact List.forall_mem_cons.mpr ⟨loadable, all⟩
  · exact .error _

theorem fieldsLoadable (values : ValuesLoadable n) (fields : ∀ k < n, FieldsLoadable k) :
    FieldsLoadable n := by
  intro input before short object
  have within := length_skipSpace_le input
  unfold readFields
  split
  · next rest opened =>
    rw [opened, List.length_cons] at within
    refine (Yields.anything _).bind fun p _ => ?_
    obtain ⟨key, afterKey, fewer⟩ := p
    dsimp only
    split
    · next more colon =>
      have behindKey := length_skipSpace_le afterKey
      have spaces := length_skipSpace_le more
      rw [colon, List.length_cons] at behindKey
      refine (values (skipSpace more) (by omega)).bind fun p loadable => ?_
      obtain ⟨value, afterValue, less⟩ := p
      have extended := object.put loadable (.ofPoints key)
      dsimp only
      split
      · exact .ok extended
      · next others closed =>
        have left := length_skipSpace_le afterValue
        have shorter : others.length < n := by
          rw [closed, List.length_cons] at left
          omega
        refine (fields _ shorter others _ (Nat.le_refl _) extended).bind fun p all => .ok ?_
        exact all
      · exact .error _
    · exact .error _
  · exact .error _

/-- The three readers call each other on shorter texts, and values on texts of the same length. -/
theorem all_loadable (n : Nat) : ValuesLoadable n ∧ ItemsLoadable n ∧ FieldsLoadable n := by
  induction n using Nat.strongRecOn with
  | ind n ih =>
    have values := valuesLoadable (fun k less => (ih k less).2.1) fun k less => (ih k less).2.2
    exact ⟨values, itemsLoadable values fun k less => (ih k less).2.1,
      fieldsLoadable values fun k less => (ih k less).2.2⟩

end Values

theorem loadable_of_read {input : List Char} {item : Json} (done : read input = .ok item) :
    Loadable item := by
  have values := (all_loadable (skipSpace input).length).1
  unfold read at done
  refine (values (skipSpace input) (Nat.le_refl _)).bind (fun p loadable => ?_) item done
  obtain ⟨value, more, fewer⟩ := p
  dsimp only
  split
  · exact .ok loadable
  · exact .error _

end MatrixCalculator.Json
