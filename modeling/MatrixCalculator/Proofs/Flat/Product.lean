import MatrixCalculator.Proofs.Flat.Plane
import MatrixCalculator.Proofs.Flat.Nesting

/-! The laws of the product over exact scalars. Sums and products of grids are sums and products of
matrices, so that products are associative and distribute over sums for all shapes, those without a
cell included. -/
namespace MatrixCalculator

/-- Whether two outcomes are results together, and then the same one. -/
def SameResult {ε β : Type} (first second : Except ε β) : Prop :=
  ∀ b, first = .ok b ↔ second = .ok b

variable {α : Type}

namespace Grid

variable {m n p : Nat}

protected theorem mul_add [NonUnitalNonAssocSemiring α] (g : Grid α m n) (h k : Grid α n p) :
    g.mul (h.add k) = (g.mul h).add (g.mul k) := by
  apply toMatrix_injective
  rw [toMatrix_mul, toMatrix_add, toMatrix_add, toMatrix_mul, toMatrix_mul, Matrix.mul_add]

protected theorem add_mul [NonUnitalNonAssocSemiring α] (g h : Grid α m n) (k : Grid α n p) :
    (g.add h).mul k = (g.mul k).add (h.mul k) := by
  apply toMatrix_injective
  rw [toMatrix_mul, toMatrix_add, toMatrix_add, toMatrix_mul, toMatrix_mul, Matrix.add_mul]

theorem scale_mul [NonUnitalCommSemiring α] (factor : α) (g : Grid α m n) (h : Grid α n p) :
    (g.scale factor).mul h = (g.mul h).scale factor := by
  apply ext
  intro i j
  simp only [get_scale, get_mul_eq_sum, Finset.sum_mul]
  exact Finset.sum_congr rfl fun k _ => mul_right_comm _ _ _

theorem mul_scale [NonUnitalSemiring α] (factor : α) (g : Grid α m n) (h : Grid α n p) :
    g.mul (h.scale factor) = (g.mul h).scale factor := by
  apply ext
  intro i j
  simp only [get_scale, get_mul_eq_sum, Finset.sum_mul]
  exact Finset.sum_congr rfl fun k _ => (mul_assoc _ _ _).symm

end Grid

namespace DenseMatrix

variable {m n p : Nat}

theorem add_ofGrid [Add α] (g h : Grid α m n) :
    (ofGrid g).add (ofGrid h) = .ok (ofGrid (g.add h)) :=
  dif_pos ⟨rfl, rfl⟩

theorem exists_grid_of_ofGrid_add [Add α] {b q : DenseMatrix α} {g : Grid α m n}
    (sum : (ofGrid g).add b = .ok q) :
    ∃ h : Grid α m n, b = ofGrid h ∧ q = ofGrid (g.add h) := by
  by_cases same : b.rows = m ∧ b.cols = n
  · obtain ⟨rows, cols, h⟩ := b
    obtain ⟨rfl, rfl⟩ := same
    exact ⟨h, rfl, (Except.ok.inj ((add_ofGrid g h).symm.trans sum)).symm⟩
  · have refused : (ofGrid g).add b = .error _ := dif_neg same
    rw [refused] at sum
    contradiction

theorem mul_error_iff [Zero α] [Add α] [Mul α] {a b : DenseMatrix α} {fault : Fault} :
    a.mul b = .error fault ↔
      a.cols ≠ b.rows ∧ fault = .productShapes a.rows a.cols b.rows b.cols := by
  unfold mul
  split
  · next fits => simp [fits]
  · next differs => simp [Ne.symm differs, eq_comm]

variable [CommRing α]

theorem mul_assoc_sameResult (a b c : DenseMatrix α) :
    SameResult (do (← a.mul b).mul c) (do a.mul (← b.mul c)) := by
  intro p
  constructor
  · intro made
    obtain ⟨q, first, second⟩ := Checked.bind_eq_ok made
    obtain ⟨_, h, rfl, rfl⟩ := exists_grid_of_ofGrid_mul (g := a.grid) first
    obtain ⟨_, k, rfl, rfl⟩ := exists_grid_of_ofGrid_mul second
    rw [mul_ofGrid, Checked.ok_bind, Grid.mul_mul]
    exact mul_ofGrid a.grid _
  · intro made
    obtain ⟨q, first, second⟩ := Checked.bind_eq_ok made
    obtain ⟨_, k, rfl, rfl⟩ := exists_grid_of_ofGrid_mul (g := b.grid) first
    obtain ⟨_, g, rfl, rfl⟩ := exists_grid_of_mul second
    show ((ofGrid g).mul (ofGrid b.grid) >>= fun q => q.mul (ofGrid k)) = _
    rw [mul_ofGrid, Checked.ok_bind, mul_ofGrid, Grid.mul_mul]

theorem mul_add_sameResult (a b c : DenseMatrix α) :
    SameResult (do a.mul (← b.add c)) (do (← a.mul b).add (← a.mul c)) := by
  intro p
  constructor
  · intro made
    obtain ⟨q, first, second⟩ := Checked.bind_eq_ok made
    obtain ⟨k, rfl, rfl⟩ := exists_grid_of_ofGrid_add (g := b.grid) first
    obtain ⟨_, g, rfl, rfl⟩ := exists_grid_of_mul second
    show ((ofGrid g).mul (ofGrid b.grid) >>= fun l => (ofGrid g).mul (ofGrid k) >>= l.add) = _
    rw [mul_ofGrid, Checked.ok_bind, mul_ofGrid, Checked.ok_bind, add_ofGrid, Grid.mul_add]
  · intro made
    obtain ⟨l, left, rest⟩ := Checked.bind_eq_ok made
    obtain ⟨r, right, sum⟩ := Checked.bind_eq_ok rest
    obtain ⟨_, h, rfl, rfl⟩ := exists_grid_of_ofGrid_mul (g := a.grid) left
    obtain ⟨_, k, rfl, rfl⟩ := exists_grid_of_ofGrid_mul (g := a.grid) right
    obtain ⟨_, same, rfl⟩ := exists_grid_of_ofGrid_add sum
    cases same
    rw [add_ofGrid, Checked.ok_bind, ← Grid.mul_add]
    exact mul_ofGrid a.grid _

theorem add_mul_sameResult (a b c : DenseMatrix α) :
    SameResult (do (← a.add b).mul c) (do (← a.mul c).add (← b.mul c)) := by
  intro p
  constructor
  · intro made
    obtain ⟨q, first, second⟩ := Checked.bind_eq_ok made
    obtain ⟨h, rfl, rfl⟩ := exists_grid_of_ofGrid_add (g := a.grid) first
    obtain ⟨_, k, rfl, rfl⟩ := exists_grid_of_ofGrid_mul second
    show ((ofGrid a.grid).mul (ofGrid k) >>= fun l => (ofGrid h).mul (ofGrid k) >>= l.add) = _
    rw [mul_ofGrid, Checked.ok_bind, mul_ofGrid, Checked.ok_bind, add_ofGrid, Grid.add_mul]
  · intro made
    obtain ⟨l, left, rest⟩ := Checked.bind_eq_ok made
    obtain ⟨r, right, sum⟩ := Checked.bind_eq_ok rest
    obtain ⟨_, g, rfl, rfl⟩ := exists_grid_of_mul (h := c.grid) left
    obtain ⟨_, h, rfl, rfl⟩ := exists_grid_of_mul (h := c.grid) right
    obtain ⟨_, same, rfl⟩ := exists_grid_of_ofGrid_add sum
    cases same
    rw [add_ofGrid, Checked.ok_bind, ← Grid.add_mul]
    exact mul_ofGrid _ c.grid

theorem identity_mul (a : DenseMatrix α) : (do (← identity a.rows).mul a) = .ok a := by
  rw [identity_natCast, Checked.ok_bind]
  refine (mul_ofGrid _ a.grid).trans ?_
  rw [Grid.identity_mul]
  rfl

theorem mul_identity (a : DenseMatrix α) : (do a.mul (← identity a.cols)) = .ok a := by
  rw [identity_natCast, Checked.ok_bind]
  refine (mul_ofGrid a.grid _).trans ?_
  rw [Grid.mul_identity]
  rfl

/-- A factor on either side of a product is one on the product. -/
theorem scale_product (a b : DenseMatrix α) (factor : α) :
    (a.scale factor).mul b = (a.mul b).map (·.scale factor) ∧
      a.mul (b.scale factor) = (a.mul b).map (·.scale factor) := by
  by_cases fits : b.rows = a.cols
  · obtain ⟨n, p, h⟩ := b
    obtain rfl : n = a.cols := fits
    have product := congrArg (·.map (·.scale factor)) (mul_ofGrid a.grid h)
    constructor
    · refine (mul_ofGrid (a.grid.scale factor) h).trans ?_
      rw [Grid.scale_mul]
      exact product.symm
    · refine (mul_ofGrid a.grid (h.scale factor)).trans ?_
      rw [Grid.mul_scale]
      exact product.symm
  · have refused : a.mul b = _ := dif_neg fits
    rw [refused]
    exact ⟨dif_neg fits, dif_neg fits⟩

end DenseMatrix

namespace Flat

theorem SameResult.stored {first second : Except Fault (DenseMatrix α)}
    (same : SameResult first second) : SameResult (stored first) (stored second) := by
  intro s
  rw [stored_eq_ok_iff, stored_eq_ok_iff]
  exact exists_congr fun p => and_congr_left' (same p)

variable [CommRing α]

theorem stored_map_scale (outcome : Except Fault (DenseMatrix α)) (factor : α) :
    (do scaled (← stored outcome) factor) = stored (outcome.map (·.scale factor)) := by
  cases outcome with
  | error fault => rfl
  | ok p => exact scaled_of p factor

structure ProductLaws (α : Type) [CommRing α] : Prop where
  refused : ∀ (a b : DenseMatrix α) (fault : Fault), a.mul b = .error fault ↔
    a.cols ≠ b.rows ∧ fault = .productShapes a.rows a.cols b.rows b.cols
  mul_assoc : ∀ a b c : DenseMatrix α, SameResult (do (← a.mul b).mul c) (do a.mul (← b.mul c))
  mul_add : ∀ a b c : DenseMatrix α,
    SameResult (do a.mul (← b.add c)) (do (← a.mul b).add (← a.mul c))
  add_mul : ∀ a b c : DenseMatrix α,
    SameResult (do (← a.add b).mul c) (do (← a.mul c).add (← b.mul c))
  identity_mul : ∀ a : DenseMatrix α, (do (← DenseMatrix.identity a.rows).mul a) = .ok a
  mul_identity : ∀ a : DenseMatrix α, (do a.mul (← DenseMatrix.identity a.cols)) = .ok a
  scale_mul : ∀ (a b : DenseMatrix α) (factor : α),
    (a.scale factor).mul b = (a.mul b).map (·.scale factor)
  mul_scale : ∀ (a b : DenseMatrix α) (factor : α),
    a.mul (b.scale factor) = (a.mul b).map (·.scale factor)
  stored_refused : ∀ (s t : Storage α) (failure : Failure), s.Full → t.Full →
    (product s t = .error failure ↔
      s.cols ≠ t.rows ∧ failure = .ofFault (.productShapes s.rows s.cols t.rows t.cols))
  stored_mul_assoc : ∀ s t u : Storage α, s.Full → t.Full → u.Full →
    SameResult (do product (← product s t) u) (do product s (← product t u))
  stored_mul_add : ∀ s t u : Storage α, s.Full → t.Full → u.Full →
    SameResult (do product s (← sum t u)) (do sum (← product s t) (← product s u))
  stored_add_mul : ∀ s t u : Storage α, s.Full → t.Full → u.Full →
    SameResult (do product (← sum s t) u) (do sum (← product s u) (← product t u))
  stored_identity_mul : ∀ s : Storage α, s.Full → (do product (← identity s.rows) s) = .ok s
  stored_mul_identity : ∀ s : Storage α, s.Full → (do product s (← identity s.cols)) = .ok s
  stored_scale_mul : ∀ (s t : Storage α) (factor : α), s.Full → t.Full →
    (do product (← scaled s factor) t) = (do scaled (← product s t) factor)
  stored_mul_scale : ∀ (s t : Storage α) (factor : α), s.Full → t.Full →
    (do product s (← scaled t factor)) = (do scaled (← product s t) factor)

/-- Over exact scalars products obey the laws of a ring wherever they are defined. -/
theorem productLaws : ProductLaws α where
  refused _ _ _ := DenseMatrix.mul_error_iff
  mul_assoc := DenseMatrix.mul_assoc_sameResult
  mul_add := DenseMatrix.mul_add_sameResult
  add_mul := DenseMatrix.add_mul_sameResult
  identity_mul := DenseMatrix.identity_mul
  mul_identity := DenseMatrix.mul_identity
  scale_mul a b factor := (DenseMatrix.scale_product a b factor).1
  mul_scale a b factor := (DenseMatrix.scale_product a b factor).2
  stored_refused s t failure left right := by
    obtain ⟨a, rfl⟩ := left.exists_of
    obtain ⟨b, rfl⟩ := right.exists_of
    rw [product_of, stored_eq_error_iff]
    constructor
    · rintro ⟨fault, refused, rfl⟩
      obtain ⟨differs, rfl⟩ := DenseMatrix.mul_error_iff.mp refused
      exact ⟨differs, rfl⟩
    · rintro ⟨differs, rfl⟩
      exact ⟨_, DenseMatrix.mul_error_iff.mpr ⟨differs, rfl⟩, rfl⟩
  stored_mul_assoc s t u first second third := by
    obtain ⟨a, rfl⟩ := first.exists_of
    obtain ⟨b, rfl⟩ := second.exists_of
    obtain ⟨c, rfl⟩ := third.exists_of
    rw [carried_bind (product_of a b) fun p => product_of p c,
      carried_bind (product_of b c) fun p => product_of a p]
    exact SameResult.stored (DenseMatrix.mul_assoc_sameResult a b c)
  stored_mul_add s t u first second third := by
    obtain ⟨a, rfl⟩ := first.exists_of
    obtain ⟨b, rfl⟩ := second.exists_of
    obtain ⟨c, rfl⟩ := third.exists_of
    rw [carried_bind (sum_of b c) fun p => product_of a p, carried_bind (product_of a b) fun p =>
      carried_bind (product_of a c) fun q => sum_of p q]
    exact SameResult.stored (DenseMatrix.mul_add_sameResult a b c)
  stored_add_mul s t u first second third := by
    obtain ⟨a, rfl⟩ := first.exists_of
    obtain ⟨b, rfl⟩ := second.exists_of
    obtain ⟨c, rfl⟩ := third.exists_of
    rw [carried_bind (sum_of a b) fun p => product_of p c, carried_bind (product_of a c) fun p =>
      carried_bind (product_of b c) fun q => sum_of p q]
    exact SameResult.stored (DenseMatrix.add_mul_sameResult a b c)
  stored_identity_mul s full := by
    obtain ⟨a, rfl⟩ := full.exists_of
    rw [carried_bind (identity_eq _) fun p => product_of p a]
    exact congrArg stored a.identity_mul
  stored_mul_identity s full := by
    obtain ⟨a, rfl⟩ := full.exists_of
    rw [carried_bind (identity_eq _) fun p => product_of a p]
    exact congrArg stored a.mul_identity
  stored_scale_mul s t factor left right := by
    obtain ⟨a, rfl⟩ := left.exists_of
    obtain ⟨b, rfl⟩ := right.exists_of
    rw [scaled_of, Checked.ok_bind, product_of, product_of, stored_map_scale,
      (DenseMatrix.scale_product a b factor).1]
  stored_mul_scale s t factor left right := by
    obtain ⟨a, rfl⟩ := left.exists_of
    obtain ⟨b, rfl⟩ := right.exists_of
    rw [scaled_of, Checked.ok_bind, product_of, product_of, stored_map_scale,
      (DenseMatrix.scale_product a b factor).2]

def emptyRows : Storage ℤ :=
  ⟨2, 0, []⟩

def emptyColumns : Storage ℤ :=
  ⟨0, 2, []⟩

def threeAndFour : Storage ℤ :=
  ⟨2, 1, [3, 4]⟩

/-- Two rows without a cell times two columns without a cell are four zeros, so that the product
with a column is zero whichever product is taken first. -/
theorem productLaws_empty :
    emptyRows.Full ∧ emptyColumns.Full ∧ threeAndFour.Full ∧
      (do product (← product emptyRows emptyColumns) threeAndFour) = .ok ⟨2, 1, [0, 0]⟩ ∧
      (do product emptyRows (← product emptyColumns threeAndFour)) = .ok ⟨2, 1, [0, 0]⟩ ∧
      product emptyRows threeAndFour = .error (.ofFault (.productShapes 2 0 2 1)) :=
  have first : (do product (← product emptyRows emptyColumns) threeAndFour) =
      .ok ⟨2, 1, [0, 0]⟩ := rfl
  ⟨rfl, rfl, rfl, first,
    (productLaws.stored_mul_assoc emptyRows emptyColumns threeAndFour rfl rfl rfl _).mp first,
    (productLaws.stored_refused emptyRows threeAndFour _ rfl rfl).mpr ⟨by decide, rfl⟩⟩

end Flat
end MatrixCalculator
