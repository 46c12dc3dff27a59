import MatrixCalculator.Proofs.Flat.Textbook

/-! The operations that make new storages, by the textbook. On storages that show matrices they
return if and only if the textbook defines a matrix, and what they return shows it. -/
namespace MatrixCalculator.Flat

open Workspace (Creation)

variable {memory : Memory Float} {m n p : Nat}

theorem Holds.find {name : String} {A : Matrix (Fin m) (Fin n) Float}
    (held : Holds memory name A) : memory.find name = .ok (.ofGrid (Grid.ofMatrix A)) := by
  obtain ⟨s, found, shown⟩ := held
  rw [Memory.find, found, shown.eq_ofGrid]

/-- What is made from a storage that is looked up is made from one that shows a matrix. -/
theorem holds_of_find_bind (known : ∀ name s, memory name = some s → ∃ m, s = .of m)
    {name : String} {next : Storage Float → Except Failure (Storage Float)} {s : Storage Float}
    (made : (memory.find name >>= next) = .ok s) :
    ∃ (m n : Nat) (g : Grid Float m n), Holds memory name g.toMatrix ∧ next (.ofGrid g) = .ok s := by
  obtain ⟨found, looked, made⟩ := Checked.bind_eq_ok made
  cases stored : memory name with
  | none => simp [Memory.find, stored] at looked
  | some t =>
    have same : t = found := by simpa [Memory.find, stored] using looked
    subst same
    obtain ⟨m, rfl⟩ := known name t stored
    exact ⟨m.rows, m.cols, m.grid, ⟨_, stored, shows_ofGrid m.grid⟩, made⟩

theorem identity_natCast (n : Nat) :
    identity n = .ok (.ofGrid (Grid.identity n : Grid Float n n)) :=
  (identity_eq _).trans (congrArg stored (DenseMatrix.identity_natCast n))

theorem add_ofGrid (g h : Grid Float m n) :
    sum (.ofGrid g) (.ofGrid h) = .ok (.ofGrid (g.add h)) :=
  (sum_of _ _).trans (congrArg stored (dif_pos ⟨rfl, rfl⟩))

theorem mul_ofGrid (g : Grid Float m n) (h : Grid Float n p) :
    product (.ofGrid g) (.ofGrid h) = .ok (.ofGrid (g.mul h)) :=
  (product_of _ _).trans (congrArg stored (DenseMatrix.mul_ofGrid g h))

theorem inverse_ofGrid (g : Grid Float n n) :
    inverse (.ofGrid g) = carried .ofGrid g.inverse.outcome := by
  refine (inverse_of _).trans ?_
  rw [DenseMatrix.inverse_ofGrid]
  cases g.inverse.outcome <;> rfl

theorem power_ofGrid (g : Grid Float n n) {exponent : Float} {k : Int}
    (whole : isIntegral exponent = true) (near : Scalar.nearest exponent = some k) :
    power (.ofGrid g) exponent = carried (fun base => .ofGrid (base.power k.natAbs))
      (if k < 0 then g.inverse.outcome else .ok g) := by
  refine (power_of _ _).trans ?_
  simp only [DenseMatrix.power_ofGrid, whole, near]
  split
  · cases g.inverse.outcome <;> rfl
  · rfl

theorem fromRows_even {rows : List (List Float)} (some_row : rows ≠ [])
    (even : ∀ row ∈ rows, row.length = n) :
    fromRows rows = construct rows.length n (some rows.flatten) := by
  cases rows with
  | nil => contradiction
  | cons first rest =>
    have width : first.length = n := even first List.mem_cons_self
    have none : (first :: rest).findIdx? (fun row => row.length != n) = none := by
      rw [List.findIdx?_eq_none_iff]
      intro row member
      simpa using even row member
    rw [fromRows, width, gather_eq, none]
    rfl

theorem fromRows_ofFn (A : Matrix (Fin (m + 1)) (Fin n) Float) :
    fromRows (List.ofFn fun i => List.ofFn (A i)) = .ok (.ofGrid (Grid.ofMatrix A)) := by
  have even : ∀ row ∈ List.ofFn fun i => List.ofFn (A i), row.length = n := by
    intro row member
    obtain ⟨i, rfl⟩ := (List.mem_ofFn' _ _).mp member
    exact List.length_ofFn
  have flat : (List.ofFn fun i => List.ofFn (A i)).flatten = (Grid.ofMatrix A).toList := by
    apply Grid.eq_toList
    · rw [length_flatten even, List.length_ofFn]
    · intro i j
      rw [getElem?_flatten even _ j.isLt, List.getElem?_ofFn, dif_pos i.isLt, Option.bind_some,
        List.getElem?_ofFn, dif_pos j.isLt, Grid.ofMatrix, Grid.get_ofFn]
  rw [fromRows_even (by simp) even, List.length_ofFn, flat]
  exact construct_toList _

theorem exists_ofFn {rows : List (List Float)} (even : ∀ row ∈ rows, row.length = n) :
    ∃ A : Matrix (Fin rows.length) (Fin n) Float,
      rows = List.ofFn fun i => List.ofFn (A i) := by
  have width (i : Fin rows.length) : n = (rows.get i).length := (even _ (List.get_mem rows i)).symm
  refine ⟨fun i j => (rows.get i).get (j.cast (width i)), ?_⟩
  apply List.ext_getElem (by simp)
  intro i inside _
  rw [List.getElem_ofFn]
  apply List.ext_getElem
  · simpa using (width ⟨i, inside⟩).symm
  · intro j _ _
    simp

theorem even_of_fromRows {first : List Float} {rest : List (List Float)} {s : Storage Float}
    (made : fromRows (first :: rest) = .ok s) :
    ∀ row ∈ first :: rest, row.length = first.length := by
  rw [fromRows, gather_eq] at made
  cases ragged : (first :: rest).findIdx? fun row => row.length != first.length with
  | some i =>
    rw [ragged] at made
    cases made
  | none =>
    intro row member
    simpa using List.findIdx?_eq_none_iff.mp ragged row member

/-- What the textbook defines is made. -/
theorem create_of_makes {creation : Creation Float} {B : Matrix (Fin m) (Fin n) Float}
    (makes : Makes memory creation B) : ∃ s, s.Shows B ∧ memory.create creation = .ok s := by
  cases makes with
  | zeros => exact ⟨_, shows_of_toMatrix Grid.toMatrix_zero, construct_zeros m n⟩
  | @shaped _ _ cells _ listed =>
    refine ⟨⟨m, n, cells⟩, listed, ?_⟩
    have same := listed.eq_ofGrid
    rw [same]
    have cells : cells = (Grid.ofMatrix B).toList := congrArg Storage.data same
    rw [Memory.create, cells]
    exact construct_toList _
  | identity => exact ⟨_, shows_of_toMatrix Grid.toMatrix_identity, identity_natCast _⟩
  | scalar x => exact ⟨_, shows_of_toMatrix (Grid.toMatrix_ofMatrix _), single_eq x⟩
  | rows => exact ⟨_, shows_of_toMatrix (Grid.toMatrix_ofMatrix _), fromRows_ofFn B⟩
  | noRows =>
    refine ⟨_, shows_of_toMatrix ?_, construct_zeros 0 0⟩
    exact Matrix.ext fun i => i.elim0
  | copy held =>
    refine ⟨_, shows_of_toMatrix (Grid.toMatrix_ofMatrix _), ?_⟩
    rw [Memory.create, held.find]
    exact copy_of _
  | @transpose _ _ source A held =>
    refine ⟨.ofGrid (Grid.ofMatrix A).transpose, shows_of_toMatrix ?_, ?_⟩
    · rw [Grid.toMatrix_transpose, Grid.toMatrix_ofMatrix]
    · rw [Memory.create, held.find]
      exact transposed_of _
  | inverse held inverts =>
    refine ⟨_, shows_of_toMatrix (Grid.toMatrix_ofMatrix _), ?_⟩
    rw [Memory.create, held.find, Checked.ok_bind, inverse_ofGrid, inverts]
    rfl
  | @sum _ _ left right A B first second =>
    refine ⟨.ofGrid ((Grid.ofMatrix A).add (Grid.ofMatrix B)), shows_of_toMatrix ?_, ?_⟩
    · rw [Grid.toMatrix_add, Grid.toMatrix_ofMatrix, Grid.toMatrix_ofMatrix]
    · rw [Memory.create, first.find, second.find]
      exact add_ofGrid _ _
  | @product _ _ _ left right A B first second =>
    refine ⟨.ofGrid ((Grid.ofMatrix A).mul (Grid.ofMatrix B)), shows_of_toMatrix ?_, ?_⟩
    · rw [toMatrix_mul_accumulated, Grid.toMatrix_ofMatrix, Grid.toMatrix_ofMatrix]
    · rw [Memory.create, first.find, second.find]
      exact mul_ofGrid _ _
  | @scaled _ _ source A held factor =>
    refine ⟨.ofGrid ((Grid.ofMatrix A).scale factor), shows_of_toMatrix ?_, ?_⟩
    · rw [Grid.toMatrix_scale, Grid.toMatrix_ofMatrix]
    · rw [Memory.create, held.find]
      exact scaled_of _ _
  | @power _ source exponent k A C held whole near base =>
    refine ⟨.ofGrid ((Grid.ofMatrix C).power k.natAbs), shows_ofGrid _, ?_⟩
    have start : (if k < 0 then (Grid.ofMatrix A).inverse.outcome else .ok (Grid.ofMatrix A)) =
        .ok (Grid.ofMatrix C) := by
      split at base
      · next negative => rw [if_pos negative, base]
      · next natural => rw [if_neg natural, base]
    rw [Memory.create, held.find, Checked.ok_bind, power_ofGrid _ whole near, start]
    rfl

def Textbook (memory : Memory Float) (creation : Creation Float) (s : Storage Float) : Prop :=
  ∃ (m n : Nat) (B : Matrix (Fin m) (Fin n) Float), s.Shows B ∧ Makes memory creation B

theorem makes_of_construct {rows cols : Int} {data : Option (List Float)} {s : Storage Float}
    (made : construct rows cols data = .ok s) : Textbook memory (.shaped rows cols data) s := by
  by_cases negative : rows < 0 ∨ cols < 0
  · have refused : construct rows cols data = .error _ := if_pos negative
    rw [refused] at made
    cases made
  · rw [not_or, not_lt, not_lt] at negative
    obtain ⟨low, left⟩ := negative
    lift rows to Nat using low
    lift cols to Nat using left
    cases data with
    | none =>
      cases (construct_zeros rows cols).symm.trans made
      exact ⟨rows, cols, 0, shows_of_toMatrix Grid.toMatrix_zero, .zeros rows cols⟩
    | some cells =>
      by_cases count : cells.length = rows * cols
      · let g : Grid Float rows cols := ⟨⟨cells.toArray, count⟩⟩
        cases (construct_toList g).symm.trans made
        exact ⟨rows, cols, g.toMatrix, shows_ofGrid g, .shaped (shows_ofGrid g)⟩
      · rw [construct_eq, DenseMatrix.new, if_neg (by omega)] at made
        have refused : DenseMatrix.ofList rows cols cells = .error _ := dif_neg count
        simp only [Int.toNat_natCast, refused] at made
        cases made

theorem power_eq_ok {g : Grid Float n n} {exponent : Float} {s : Storage Float}
    (made : power (.ofGrid g) exponent = .ok s) :
    ∃ (k : Int) (h : Grid Float n n), Scalar.nearest exponent = some k ∧
      isIntegral exponent = true ∧
      (if k < 0 then Inverts g.toMatrix h.toMatrix else h.toMatrix = g.toMatrix) ∧
      s = .ofGrid (h.power k.natAbs) := by
  have refusal : isIntegral exponent = false ∨ Scalar.nearest exponent = none →
      power (.ofGrid g) exponent = .error (.ofFault .fractionalMatrixPower) := by
    intro broken
    refine (power_of _ _).trans ?_
    rw [DenseMatrix.power_ofGrid]
    rcases broken with fractional | infinite
    · rw [fractional]
      cases Scalar.nearest exponent <;> rfl
    · rw [infinite]
      rfl
  cases whole : isIntegral exponent with
  | false =>
    rw [refusal (.inl whole)] at made
    cases made
  | true =>
    cases near : Scalar.nearest exponent with
    | none =>
      rw [refusal (.inr near)] at made
      cases made
    | some k =>
      rw [power_ofGrid g whole near] at made
      by_cases negative : k < 0
      · rw [if_pos negative] at made
        cases found : g.inverse.outcome with
        | error fault =>
          rw [found] at made
          cases made
        | ok h =>
          rw [found] at made
          cases made
          exact ⟨k, h, rfl, rfl, (if_pos negative).symm ▸ inverts_toMatrix.mpr found, rfl⟩
      · rw [if_neg negative] at made
        cases made
        exact ⟨k, g, rfl, rfl, (if_neg negative).symm ▸ rfl, rfl⟩

theorem makes_of_identity {size : Int} {s : Storage Float} (made : identity size = .ok s) :
    Textbook memory (.identity size) s := by
  by_cases negative : size < 0
  · have refused : (DenseMatrix.identity size : Except Fault (DenseMatrix Float)) = .error _ :=
      if_pos negative
    cases ((identity_eq size).trans (congrArg stored refused)).symm.trans made
  · lift size to Nat using not_lt.mp negative
    cases (identity_natCast size).symm.trans made
    exact ⟨size, size, 1, shows_of_toMatrix Grid.toMatrix_identity, .identity size⟩

theorem makes_of_fromRows {rows : List (List Float)} {s : Storage Float}
    (made : fromRows rows = .ok s) : Textbook memory (.rows rows) s := by
  cases rows with
  | nil =>
    cases (construct_zeros 0 0).symm.trans made
    exact ⟨0, 0, _, shows_ofGrid _, .noRows _⟩
  | cons first rest =>
    obtain ⟨A, same⟩ := exists_ofFn (even_of_fromRows made)
    rw [same] at made ⊢
    cases (fromRows_ofFn A).symm.trans made
    exact ⟨_, _, A, shows_of_toMatrix (Grid.toMatrix_ofMatrix _), .rows A⟩

section Held

variable {source left right : String} {g : Grid Float m n} {s : Storage Float}

theorem makes_of_inverse (held : Holds memory source g.toMatrix)
    (made : inverse (.ofGrid g) = .ok s) : Textbook memory (.inverse source) s := by
  by_cases square : n = m
  · subst square
    rw [inverse_ofGrid] at made
    cases found : g.inverse.outcome with
    | error fault =>
      rw [found] at made
      cases made
    | ok h =>
      rw [found] at made
      cases made
      exact ⟨_, _, _, shows_ofGrid h, .inverse held (inverts_toMatrix.mpr found)⟩
  · have refused : inverse (Storage.ofGrid g) = .error _ := if_neg square
    rw [refused] at made
    cases made

theorem makes_of_power {exponent : Float} (held : Holds memory source g.toMatrix)
    (made : power (.ofGrid g) exponent = .ok s) : Textbook memory (.power source exponent) s := by
  by_cases square : n = m
  · subst square
    obtain ⟨k, h, near, whole, base, rfl⟩ := power_eq_ok made
    have powered : raised h.toMatrix k.natAbs = (h.power k.natAbs).toMatrix := by
      rw [raised, Grid.ofMatrix_toMatrix]
    exact ⟨_, _, _, shows_of_toMatrix powered.symm, .power held whole near base⟩
  · have refused : power (Storage.ofGrid g) exponent = .error _ := if_neg square
    rw [refused] at made
    cases made

theorem makes_of_sum {m' n' : Nat} {h : Grid Float m' n'} (first : Holds memory left g.toMatrix)
    (second : Holds memory right h.toMatrix) (made : sum (.ofGrid g) (.ofGrid h) = .ok s) :
    Textbook memory (.sum left right) s := by
  by_cases same : m' = m ∧ n' = n
  · obtain ⟨rfl, rfl⟩ := same
    cases (add_ofGrid g h).symm.trans made
    exact ⟨_, _, _, shows_of_toMatrix (Grid.toMatrix_add g h), .sum first second⟩
  · have refused : sum (Storage.ofGrid g) (Storage.ofGrid h) = .error _ := if_neg same
    rw [refused] at made
    cases made

theorem makes_of_product {n' p : Nat} {h : Grid Float n' p}
    (first : Holds memory left g.toMatrix) (second : Holds memory right h.toMatrix)
    (made : product (.ofGrid g) (.ofGrid h) = .ok s) :
    Textbook memory (.product left right) s := by
  by_cases fits : n' = n
  · subst fits
    cases (mul_ofGrid g h).symm.trans made
    exact ⟨_, _, _, shows_of_toMatrix (toMatrix_mul_accumulated g h), .product first second⟩
  · have refused : product (Storage.ofGrid g) (Storage.ofGrid h) = .error _ := if_neg fits
    rw [refused] at made
    cases made

end Held

/-- What is made is what the textbook defines. -/
theorem makes_of_create (known : ∀ name s, memory name = some s → ∃ m, s = .of m)
    {creation : Creation Float} {s : Storage Float} (made : memory.create creation = .ok s) :
    Textbook memory creation s := by
  cases creation with
  | shaped rows cols data => exact makes_of_construct made
  | identity size => exact makes_of_identity made
  | scalar x =>
    cases (single_eq x).symm.trans made
    exact ⟨1, 1, _, shows_of_toMatrix (Grid.toMatrix_ofMatrix _), .scalar x⟩
  | rows rows => exact makes_of_fromRows made
  | copy source =>
    obtain ⟨m, n, g, held, made⟩ := holds_of_find_bind known made
    cases (copy_of _).symm.trans made
    exact ⟨m, n, _, shows_ofGrid g, .copy held⟩
  | transpose source =>
    obtain ⟨m, n, g, held, made⟩ := holds_of_find_bind known made
    cases (transposed_of _).symm.trans made
    exact ⟨n, m, _, shows_of_toMatrix (Grid.toMatrix_transpose g), .transpose held⟩
  | inverse source =>
    obtain ⟨m, n, g, held, made⟩ := holds_of_find_bind known made
    exact makes_of_inverse held made
  | sum left right =>
    obtain ⟨m, n, g, first, made⟩ := holds_of_find_bind known made
    obtain ⟨m', n', h, second, made⟩ := holds_of_find_bind known made
    exact makes_of_sum first second made
  | product left right =>
    obtain ⟨m, n, g, first, made⟩ := holds_of_find_bind known made
    obtain ⟨n', p, h, second, made⟩ := holds_of_find_bind known made
    exact makes_of_product first second made
  | scaled source factor =>
    obtain ⟨m, n, g, held, made⟩ := holds_of_find_bind known made
    cases (scaled_of _ _).symm.trans made
    exact ⟨m, n, _, shows_of_toMatrix (Grid.toMatrix_scale factor g), .scaled held factor⟩
  | power source exponent =>
    obtain ⟨m, n, g, held, made⟩ := holds_of_find_bind known made
    exact makes_of_power held made

end MatrixCalculator.Flat
