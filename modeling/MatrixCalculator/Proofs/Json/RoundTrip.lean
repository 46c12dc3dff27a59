import MatrixCalculator.Proofs.Json.Plain

/-! A value that has been written is read back. Characters are escaped so that they come back, and
the keys of an object come in their order if none of them comes twice. -/
namespace MatrixCalculator.Json

variable {input more left rest : List Char}

section Strings

variable {c : Char} {ps : List Point}

theorem escapeFrom_mark {mark : Char} (found : unescape? mark = some c) (rest : List Char) :
    escapeFrom (mark :: rest) = .ok (.char c, rest) := by
  have plain : mark ≠ 'u' := by
    rintro rfl
    contradiction
  unfold escapeFrom
  rw [readEscape]
  · rw [found]
    rfl
  · intro a b c d others same
    exact absurd same plain

theorem hexCode?_hexCode {code : Nat} (control : code < 32) :
    ∃ a b c d, hexCode code = [a, b, c, d] ∧ hexCode? a b c d = some code := by
  refine ⟨_, _, _, _, rfl, ?_⟩
  revert code
  decide

theorem escapeFrom_hex (control : c.toNat < 32) (rest : List Char) :
    escapeFrom ('u' :: (hexCode c.toNat ++ rest)) = .ok (.char c, rest) := by
  obtain ⟨a, b, d, e, digits, code⟩ := hexCode?_hexCode control
  have high : isHighSurrogate c.toNat = false := by
    simp only [isHighSurrogate, Bool.and_eq_false_iff, decide_eq_false_iff_not]
    omega
  have low : isLowSurrogate c.toNat = false := by
    simp only [isLowSurrogate, Bool.and_eq_false_iff, decide_eq_false_iff_not]
    omega
  have alone : Point.ofCode c.toNat = .char c := by simp [Point.ofCode, high, low]
  unfold escapeFrom
  rw [digits]
  simp only [List.cons_append, List.nil_append]
  rw [readEscape]
  simp only [code, high, alone]
  rfl

/-- A character is written behind a backslash if it has a mark or no form of its own. -/
theorem escaped_cases (c : Char) :
    (∃ mark, escaped c = ['\\', mark] ∧ unescape? mark = some c) ∨
      c.toNat < 32 ∧ escaped c = '\\' :: 'u' :: hexCode c.toNat ∨
      (c ≠ '"' ∧ c ≠ '\\' ∧ ¬ c.toNat < 32) ∧ escaped c = [c] := by
  by_cases marked : c ∈ ['"', '\\', '\n', '\r', '\t', '\x08', '\x0c']
  · simp only [List.mem_cons, List.not_mem_nil, or_false] at marked
    rcases marked with rfl | rfl | rfl | rfl | rfl | rfl | rfl <;> exact .inl ⟨_, rfl, rfl⟩
  · simp only [List.mem_cons, List.not_mem_nil, or_false, not_or] at marked
    obtain ⟨quote, backslash, line, carriage, tab, backspace, feed⟩ := marked
    by_cases control : c.toNat < 32
    · exact .inr (.inl ⟨control, by simp [escaped, *]⟩)
    · exact .inr (.inr ⟨⟨quote, backslash, control⟩, by simp [escaped, *]⟩)

theorem pointsFrom_escaped (later : pointsFrom more = .ok (ps, rest)) (c : Char) :
    pointsFrom (escaped c ++ more) = .ok (.char c :: ps, rest) := by
  obtain ⟨mark, text, found⟩ | ⟨control, text⟩ | ⟨⟨quote, backslash, printable⟩, text⟩ :=
    escaped_cases c
  · rw [text]
    exact pointsFrom_escape (escapeFrom_mark found more) later
  · rw [text]
    exact pointsFrom_escape (escapeFrom_hex control more) later
  · rw [text]
    exact pointsFrom_cons quote backslash printable later

theorem pointsFrom_quoted {s : Str} (whole : s.isWhole = true) (rest : List Char) :
    pointsFrom (s.points.flatMap spelled ++ '"' :: rest) = .ok (s.points, rest) := by
  cases s with
  | broken points torn => contradiction
  | whole s =>
    rw [Str.points]
    induction s.toList with
    | nil => exact pointsFrom_quote rest
    | cons c cs ih =>
      rw [List.map_cons, List.flatMap_cons, List.append_assoc]
      exact pointsFrom_escaped ih c

end Strings

def ReadsBack (x : Float) : Prop :=
  plainFrom (doubleText x) = .ok (.double x, [])

def readsBack (x : Float) : Bool :=
  match plainFrom (doubleText x) with
  | .ok (.double y, []) => decide (y = x)
  | _ => false

theorem readsBack_iff {x : Float} : readsBack x = true ↔ ReadsBack x := by
  unfold readsBack ReadsBack
  constructor
  · intro same
    split at same
    · next y read =>
      rw [read, of_decide_eq_true same]
    · contradiction
  · intro read
    rw [read]
    exact decide_eq_true rfl

instance {x : Float} : Decidable (ReadsBack x) :=
  decidable_of_iff _ readsBack_iff

/-- A value that comes back once it has been written: whole numbers are not too long, the texts
of doubles denote them, strings and keys are texts, and no key comes twice. -/
inductive Storable : Json → Prop
  | null : Storable .null
  | bool (b : Bool) : Storable (.bool b)
  | integer {n : Int} (fits : (Nat.toDigits 10 n.natAbs).length ≤ Text.digitLimit) :
    Storable (.integer n)
  | double {x : Float} (back : ReadsBack x) : Storable (.double x)
  | string (s : String) : Storable (.string s)
  | array {items : List Json} (all : ∀ item ∈ items, Storable item) : Storable (.array items)
  | object {fields : Fields} (distinct : (fields.map (·.1)).Nodup)
      (named : ∀ f ∈ fields, f.1.isWhole = true) (values : ∀ f ∈ fields, Storable f.2) :
    Storable (.object fields)

section Values

variable {item : Json} {items : List Json} {level : Nat}

theorem skipSpace_cons {c : Char} (solid : isSpace c = false) (cs : List Char) :
    skipSpace (c :: cs) = c :: cs := by
  simp [skipSpace, solid]

theorem skipSpace_newLine (level : Nat) {c : Char} (solid : isSpace c = false) (cs : List Char) :
    skipSpace (newLine level ++ c :: cs) = c :: cs := by
  have blank : ∀ c ∈ newLine level, isSpace c = true := by
    simp [newLine, isSpace]
  rw [skipSpace, List.dropWhile_append_of_pos blank]
  exact skipSpace_cons solid cs

theorem ends_newLine (level : Nat) (cs : List Char) : Ends (newLine level ++ cs) := by
  intro c follows
  cases follows
  decide

theorem ends_comma (cs : List Char) : Ends (',' :: cs) := by
  intro c follows
  cases follows
  decide

/-- A value that can be read begins with neither a blank nor a closing bracket. -/
theorem exists_cons_of_valueFrom (read : valueFrom input = .ok (item, rest)) :
    ∃ c cs, input = c :: cs ∧ isSpace c = false ∧ c ≠ ']' := by
  by_cases opens : ∃ c ∈ ['"', '[', '{'], ∃ cs, input = c :: cs
  · obtain ⟨c, member, cs, rfl⟩ := opens
    simp only [List.mem_cons, List.not_mem_nil, or_false] at member
    rcases member with rfl | rfl | rfl <;> exact ⟨_, cs, rfl, by decide, by decide⟩
  · have plain (c : Char) (member : c ∈ ['"', '[', '{']) (cs : List Char) : input ≠ c :: cs :=
      fun same => opens ⟨c, member, cs, same⟩
    rw [valueFrom_plain (plain '"' (by decide)) (plain '[' (by decide)) (plain '{' (by decide))]
      at read
    obtain ⟨c, cs, rfl, begins⟩ := begins_of_plainFrom read
    obtain ⟨solid, other⟩ := begins.solid
    exact ⟨c, cs, rfl, solid, fun same => other (by simp [same])⟩

theorem valueFrom_of_plainFrom {front : List Char} (read : plainFrom front = .ok (item, []))
    (ends : Ends rest) : valueFrom (front ++ rest) = .ok (item, rest) := by
  have whole := plainFrom_append read ends
  obtain ⟨c, cs, begun, begins⟩ := begins_of_plainFrom whole
  have plain (d : Char) (opens : d ∈ ['"', '[', '{']) (more : List Char) :
      front ++ rest ≠ d :: more := by
    intro same
    cases begun.symm.trans same
    simp only [List.mem_cons, List.not_mem_nil, or_false] at opens
    exact begins.solid.2 (by rcases opens with rfl | rfl | rfl <;> decide)
  rw [valueFrom_plain (plain '"' (by decide)) (plain '[' (by decide)) (plain '{' (by decide))]
  exact whole

/-- A value whose text is read, in front of everything at which values end. -/
def Reads (level : Nat) (item : Json) : Prop :=
  ∀ rest, Ends rest → valueFrom (write level item ++ rest) = .ok (item, rest)

theorem Reads.skip (reads : Reads level item) (ends : Ends rest) {blanks : List Char}
    (blank : ∀ c ∈ blanks, isSpace c = true) :
    skipSpace (blanks ++ (write level item ++ rest)) = write level item ++ rest := by
  obtain ⟨c, cs, begun, solid, _⟩ := exists_cons_of_valueFrom (reads rest ends)
  rw [begun, skipSpace, List.dropWhile_append_of_pos blank]
  exact skipSpace_cons solid cs

theorem isSpace_of_newLine (level : Nat) : ∀ c ∈ newLine level, isSpace c = true := by
  simp [newLine, isSpace]

theorem ends_items (level outer : Nat) (items : List Json) (rest : List Char) :
    Ends (writeItems level items ++ (newLine outer ++ ']' :: rest)) := by
  cases items with
  | nil => exact ends_newLine outer _
  | cons item items => exact ends_comma _

theorem ends_fields (level outer : Nat) (fields : Fields) (rest : List Char) :
    Ends (writeFields level fields ++ (newLine outer ++ '}' :: rest)) := by
  cases fields with
  | nil => exact ends_newLine outer _
  | cons f fields => exact ends_comma _

theorem Reads.behind (reads : Reads level item) (ends : Ends rest) {blanks : List Char}
    (blank : ∀ c ∈ blanks, isSpace c = true) :
    valueFrom (skipSpace (blanks ++ (write level item ++ rest))) = .ok (item, rest) := by
  rw [reads.skip ends blank]
  exact reads rest ends

theorem Reads.not_closing (reads : Reads level item) (ends : Ends rest) (left : List Char) :
    skipSpace (newLine level ++ (write level item ++ rest)) ≠ ']' :: left := by
  obtain ⟨c, cs, begun, _, other⟩ := exists_cons_of_valueFrom (reads rest ends)
  rw [reads.skip ends (isSpace_of_newLine level), begun]
  exact fun same => other (List.cons.inj same).1

theorem itemsFrom_write (outer : Nat) (rest : List Char) (first : Reads level item)
    (others : ∀ item ∈ items, Reads level item) :
    itemsFrom (newLine level ++ (write level item ++
      (writeItems level items ++ (newLine outer ++ ']' :: rest)))) = .ok (item :: items, rest) := by
  induction items generalizing item with
  | nil =>
    exact itemsFrom_last (first.behind (ends_items level outer [] rest) (isSpace_of_newLine level))
      (skipSpace_newLine outer rfl rest)
  | cons next items ih =>
    obtain ⟨second, others⟩ := List.forall_mem_cons.mp others
    refine itemsFrom_cons (first.behind (ends_items level outer (next :: items) rest)
      (isSpace_of_newLine level)) (skipSpace_cons rfl _) ?_
    simpa [List.append_assoc] using ih second others

theorem put_of_fresh {key : Str} {before : Fields} (fresh : key ∉ before.map (·.1))
    (value : Json) : put key value before = before ++ [(key, value)] := by
  induction before with
  | nil => rfl
  | cons f before ih =>
    obtain ⟨other, kept⟩ := f
    obtain ⟨different, fresh⟩ := not_or.mp (fun member => fresh (List.mem_cons.mpr member))
    rw [put, if_neg (Ne.symm different), ih fresh, List.cons_append]

theorem fieldsFrom_key (reads : Reads level item) (ends : Ends rest) {key : Str}
    (named : key.isWhole = true) (before : Fields) :
    fieldsFrom before (newLine level ++ (quoted key ++
      ':' :: ' ' :: (write level item ++ rest))) = match skipSpace rest with
        | '}' :: left => .ok (put key item before, left)
        | ',' :: others => fieldsFrom (put key item before) others
        | _ => .error .malformed := by
  have read := pointsFrom_quoted named (':' :: ' ' :: (write level item ++ rest))
  have blank : ∀ c ∈ [' '], isSpace c = true := by simp [isSpace]
  have value := reads.behind ends blank
  have field := @fieldsFrom_field _ _ _ _ before _ _ _
    (skipSpace_newLine level rfl _) read (skipSpace_cons rfl _) value
  rw [Str.ofPoints_points] at field
  simp only [quoted, List.append_assoc, List.cons_append, List.nil_append]
  exact field

theorem fresh_of_distinct {key : Str} {fields before : Fields}
    (distinct : ((before ++ (key, item) :: fields).map (·.1)).Nodup) :
    key ∉ before.map (·.1) := by
  rw [List.map_append, List.map_cons] at distinct
  exact fun member => (List.nodup_append.mp distinct).2.2 key member key List.mem_cons_self rfl

/-- The keys are read behind those before them, in their order. -/
theorem fieldsFrom_write (outer : Nat) (rest : List Char) {key : Str} {fields before : Fields}
    (first : Reads level item) (others : ∀ f ∈ fields, Reads level f.2)
    (named : ∀ f ∈ (key, item) :: fields, f.1.isWhole = true)
    (distinct : ((before ++ (key, item) :: fields).map (·.1)).Nodup) :
    fieldsFrom before (newLine level ++ (quoted key ++ ':' :: ' ' :: (write level item ++
      (writeFields level fields ++ (newLine outer ++ '}' :: rest))))) =
        .ok (before ++ (key, item) :: fields, rest) := by
  induction fields generalizing key item before with
  | nil =>
    rw [fieldsFrom_key first (ends_fields level outer [] rest) (named _ List.mem_cons_self),
      put_of_fresh (fresh_of_distinct distinct), writeFields, List.nil_append,
      skipSpace_newLine outer rfl rest]
    rfl
  | cons next fields ih =>
    obtain ⟨second, others⟩ := List.forall_mem_cons.mp others
    obtain ⟨whole, named⟩ := List.forall_mem_cons.mp named
    rw [fieldsFrom_key first (ends_fields level outer (next :: fields) rest) whole,
      put_of_fresh (fresh_of_distinct distinct)]
    have later := @ih next.2 next.1 (before ++ [(key, item)]) second others named
      (by simpa [List.append_assoc] using distinct)
    simp only [writeFields, List.append_assoc, List.cons_append, List.nil_append,
      skipSpace_cons (show isSpace ',' = false from rfl)] at later ⊢
    exact later

theorem Storable.reads (storable : Storable item) (level : Nat) : Reads level item := by
  induction storable generalizing level with
  | null => exact fun rest ends => valueFrom_of_plainFrom rfl ends
  | bool b => cases b <;> exact fun rest ends => valueFrom_of_plainFrom rfl ends
  | integer fits => exact fun rest ends => valueFrom_of_plainFrom (plainFrom_integer fits) ends
  | double back => exact fun rest ends => valueFrom_of_plainFrom back ends
  | string s =>
    intro rest ends
    have read := valueFrom_string (@pointsFrom_quoted s rfl rest)
    rw [Str.ofPoints_points] at read
    simpa [write, quoted] using read
  | @array items all ih =>
    intro rest ends
    cases items with
    | nil => exact valueFrom_emptyArray (skipSpace_cons rfl rest)
    | cons item items =>
      obtain ⟨first, others⟩ := List.forall_mem_cons.mp ih
      have read := itemsFrom_write level rest (first (level + 1))
        (fun item member => others item member (level + 1))
      have opens := (first (level + 1)).not_closing (ends_items (level + 1) level items rest)
      simpa [write] using valueFrom_array opens read
  | @object fields distinct named values ih =>
    intro rest ends
    cases fields with
    | nil => exact valueFrom_emptyObject (skipSpace_cons rfl rest)
    | cons f fields =>
      obtain ⟨key, value⟩ := f
      obtain ⟨first, others⟩ := List.forall_mem_cons.mp ih
      have read := @fieldsFrom_write _ _ level rest key fields [] (first (level + 1))
        (fun f member => others f member (level + 1)) named distinct
      have opens (left : List Char) : skipSpace (newLine (level + 1) ++ (quoted key ++
          ':' :: ' ' :: (write (level + 1) value ++ (writeFields (level + 1) fields ++
            (newLine level ++ '}' :: rest))))) ≠ '}' :: left := by
        rw [quoted, List.append_assoc, List.cons_append, skipSpace_newLine (level + 1) rfl]
        exact fun same => absurd (List.cons.inj same).1 (by decide)
      simpa [write] using valueFrom_object opens read

end Values

theorem read_text {item : Json} (storable : Storable item) :
    read item.text.toList = .ok item := by
  have ends : Ends [] := fun c follows => by contradiction
  have blank : ∀ c ∈ [], isSpace c = true := fun c member => absurd member List.not_mem_nil
  have text : item.text.toList = [] ++ (write 0 item ++ []) := by simp [Json.text]
  rw [text]
  exact read_eq_ok ((storable.reads 0).behind ends blank) rfl

end MatrixCalculator.Json
