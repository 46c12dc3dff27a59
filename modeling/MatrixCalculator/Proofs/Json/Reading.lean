import MatrixCalculator.Json.Reader

/-! Reading as it goes: what each reader makes of a text, step by step, without the proofs that
characters have been used up. -/
namespace MatrixCalculator.Json

variable {β : Type} {input more left rest : List Char} {fault : ReadFault}

def outcome (parsed : Except ReadFault (Parsed input β)) : Except ReadFault (β × List Char) :=
  parsed.map fun p => (p.item, p.rest)

def valueFrom (input : List Char) : Except ReadFault (Json × List Char) :=
  outcome (readValue input)

def plainFrom (input : List Char) : Except ReadFault (Json × List Char) :=
  outcome (readPlain input)

def itemsFrom (input : List Char) : Except ReadFault (List Json × List Char) :=
  outcome (readItems input)

def fieldsFrom (before : Fields) (input : List Char) : Except ReadFault (Fields × List Char) :=
  outcome (readFields before input)

def pointsFrom (input : List Char) : Except ReadFault (List Point × List Char) :=
  outcome (readPoints input)

def escapeFrom (input : List Char) : Except ReadFault (Point × List Char) :=
  outcome (readEscape input)

theorem exists_of_outcome {parsed : Except ReadFault (Parsed input β)} {item : β}
    (done : outcome parsed = .ok (item, rest)) :
    ∃ fewer, parsed = .ok ⟨item, rest, fewer⟩ := by
  cases parsed with
  | error fault => contradiction
  | ok p =>
    cases done
    exact ⟨p.shorter, rfl⟩

section Points

variable {ps : List Point} {p : Point} {c : Char}

theorem pointsFrom_quote (rest : List Char) :
    pointsFrom ('"' :: rest) = .ok ([], rest) := by
  unfold pointsFrom
  rw [readPoints]
  rfl

theorem pointsFrom_escape (escape : escapeFrom input = .ok (p, more))
    (later : pointsFrom more = .ok (ps, rest)) :
    pointsFrom ('\\' :: input) = .ok (p :: ps, rest) := by
  obtain ⟨_, escape⟩ := exists_of_outcome escape
  obtain ⟨_, later⟩ := exists_of_outcome later
  unfold pointsFrom
  rw [readPoints, escape]
  simp only [bind, Except.bind, later]
  rfl

theorem pointsFrom_cons (quote : c ≠ '"') (backslash : c ≠ '\\') (printable : ¬ c.toNat < 32)
    (later : pointsFrom input = .ok (ps, rest)) :
    pointsFrom (c :: input) = .ok (.char c :: ps, rest) := by
  obtain ⟨_, later⟩ := exists_of_outcome later
  unfold pointsFrom
  rw [readPoints]
  · simp only [if_neg printable, later]
    rfl
  · exact quote
  · exact backslash

end Points

section Values

variable {item : Json} {items : List Json} {fields all before : Fields} {ps : List Point}
  {c : Char}

theorem valueFrom_string (read : pointsFrom input = .ok (ps, rest)) :
    valueFrom ('"' :: input) = .ok (.string (.ofPoints ps), rest) := by
  obtain ⟨_, read⟩ := exists_of_outcome read
  unfold valueFrom
  rw [readValue, read]
  rfl

theorem valueFrom_emptyArray (closed : skipSpace input = ']' :: rest) :
    valueFrom ('[' :: input) = .ok (.array [], rest) := by
  unfold valueFrom
  rw [readValue]
  split
  · next left spaced =>
    cases closed.symm.trans spaced
    rfl
  · next opens => exact absurd closed (opens rest)

theorem valueFrom_array (opens : ∀ left, skipSpace input ≠ ']' :: left)
    (read : itemsFrom input = .ok (items, rest)) :
    valueFrom ('[' :: input) = .ok (.array items, rest) := by
  obtain ⟨_, read⟩ := exists_of_outcome read
  unfold valueFrom
  rw [readValue]
  split
  · next left closed => exact absurd closed (opens left)
  · rw [read]
    rfl

theorem valueFrom_emptyObject (closed : skipSpace input = '}' :: rest) :
    valueFrom ('{' :: input) = .ok (.object [], rest) := by
  unfold valueFrom
  rw [readValue]
  split
  · next left spaced =>
    cases closed.symm.trans spaced
    rfl
  · next opens => exact absurd closed (opens rest)

theorem valueFrom_object (opens : ∀ left, skipSpace input ≠ '}' :: left)
    (read : fieldsFrom [] input = .ok (fields, rest)) :
    valueFrom ('{' :: input) = .ok (.object fields, rest) := by
  obtain ⟨_, read⟩ := exists_of_outcome read
  unfold valueFrom
  rw [readValue]
  split
  · next left closed => exact absurd closed (opens left)
  · rw [read]
    rfl

theorem valueFrom_plain (quote : ∀ more, input ≠ '"' :: more)
    (bracket : ∀ more, input ≠ '[' :: more)
    (brace : ∀ more, input ≠ '{' :: more) : valueFrom input = plainFrom input := by
  unfold valueFrom plainFrom
  rw [readValue]
  · exact quote
  · exact bracket
  · exact brace

theorem itemsFrom_last (read : valueFrom (skipSpace input) = .ok (item, more))
    (closed : skipSpace more = ']' :: rest) : itemsFrom input = .ok ([item], rest) := by
  obtain ⟨_, read⟩ := exists_of_outcome read
  unfold itemsFrom
  rw [readItems, read]
  simp only [bind, Except.bind]
  split
  · next left spaced =>
    cases closed.symm.trans spaced
    rfl
  · next left spaced => cases closed.symm.trans spaced
  · next open_ _ => exact absurd closed (open_ rest)

theorem itemsFrom_cons (read : valueFrom (skipSpace input) = .ok (item, more))
    (comma : skipSpace more = ',' :: left) (later : itemsFrom left = .ok (items, rest)) :
    itemsFrom input = .ok (item :: items, rest) := by
  obtain ⟨_, read⟩ := exists_of_outcome read
  obtain ⟨_, later⟩ := exists_of_outcome later
  unfold itemsFrom
  rw [readItems, read]
  simp only [bind, Except.bind]
  split
  · next left spaced => cases comma.symm.trans spaced
  · next left spaced =>
    cases comma.symm.trans spaced
    rw [later]
    rfl
  · next _ ends => exact absurd comma (ends left)

/-- A first field, and what it is followed by. -/
theorem fieldsFrom_field {key value : List Char} (opened : skipSpace input = '"' :: key)
    (read_key : pointsFrom key = .ok (ps, more)) (colon : skipSpace more = ':' :: value)
    (read : valueFrom (skipSpace value) = .ok (item, left)) :
    fieldsFrom before input = match skipSpace left with
      | '}' :: rest => .ok (put (.ofPoints ps) item before, rest)
      | ',' :: others => fieldsFrom (put (.ofPoints ps) item before) others
      | _ => .error .malformed := by
  obtain ⟨_, read_key⟩ := exists_of_outcome read_key
  obtain ⟨_, read⟩ := exists_of_outcome read
  unfold fieldsFrom
  rw [readFields]
  split
  · next key spaced =>
    cases opened.symm.trans spaced
    simp only [bind, Except.bind, read_key]
    split
    · next value spaced =>
      cases colon.symm.trans spaced
      simp only [read]
      split
      · next rest closed =>
        conv => rhs; rw [closed]
        rfl
      · next others comma =>
        conv => rhs; rw [comma]
        change _ = outcome (readFields (put (.ofPoints ps) item before) others)
        cases readFields (put (.ofPoints ps) item before) others <;> rfl
      · next ends goes =>
        split
        · next rest closed => exact absurd closed (ends rest)
        · next others comma => exact absurd comma (goes others)
        · rfl
    · next absent => exact absurd colon (absent value)
  · next absent => exact absurd opened (absent key)

theorem read_eq_ok (value : valueFrom (skipSpace input) = .ok (item, more))
    (ended : skipSpace more = []) : read input = .ok item := by
  obtain ⟨_, value⟩ := exists_of_outcome value
  rw [read, value]
  simp only [bind, Except.bind, ended]
  rfl

end Values

end MatrixCalculator.Json
