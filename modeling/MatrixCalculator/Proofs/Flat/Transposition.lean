import MatrixCalculator.Proofs.Double.Multiplication
import MatrixCalculator.Proofs.Flat.Construction

/-! Transposition and products. A transpose read twice is the matrix again, whatever its shape. If
factors commute, the transpose of a product is the product of the transposes in the other order: a
cell is then the same sum of the same terms in the same order, so that the law holds for rounded
numbers as well. -/
namespace MatrixCalculator

variable {α : Type}

namespace Grid

variable {m n p : Nat}

@[simp] theorem transpose_transpose (g : Grid α m n) : g.transpose.transpose = g :=
  Grid.ext fun i j => by rw [get_transpose, get_transpose]

theorem transpose_mul [Zero α] [Add α] [Mul α] (comm : ∀ x y : α, x * y = y * x)
    (g : Grid α m n) (h : Grid α n p) : (g.mul h).transpose = h.transpose.mul g.transpose := by
  apply Grid.ext
  intro j i
  have terms : (fun (total : α) k => total + h.transpose.get j k * g.transpose.get k i) =
      fun total k => total + g.get i k * h.get k j := by
    funext total k
    rw [get_transpose, get_transpose, comm]
  rw [get_transpose, get_mul, get_mul, terms]

end Grid

namespace DenseMatrix

@[simp] theorem transpose_transpose (a : DenseMatrix α) : a.transpose.transpose = a :=
  congrArg ofGrid a.grid.transpose_transpose

variable [Zero α] [Add α] [Mul α]

theorem mul_eq_ok_iff (a b : DenseMatrix α) : (∃ p, a.mul b = .ok p) ↔ b.rows = a.cols := by
  unfold mul
  split
  · next fits => exact iff_of_true ⟨_, rfl⟩ fits
  · next fits => exact iff_of_false (fun ⟨_, product⟩ => by cases product) fits

theorem mul_transpose (comm : ∀ x y : α, x * y = y * x) {a b p : DenseMatrix α}
    (product : a.mul b = .ok p) : b.transpose.mul a.transpose = .ok p.transpose := by
  have fits := (mul_eq_ok_iff a b).mp ⟨p, product⟩
  obtain ⟨m, n, g⟩ := a
  obtain ⟨n', q, h⟩ := b
  obtain rfl : n' = n := fits
  rw [mul, dif_pos rfl] at product
  rw [← Except.ok.inj product]
  refine (dif_pos rfl).trans ?_
  exact congrArg (fun cells => Except.ok (ofGrid cells)) (Grid.transpose_mul comm g h).symm

theorem mul_transpose_eq_ok_iff (a b : DenseMatrix α) :
    (∃ p, a.mul b = .ok p) ↔ ∃ q, b.transpose.mul a.transpose = .ok q := by
  rw [mul_eq_ok_iff, mul_eq_ok_iff]
  exact eq_comm

end DenseMatrix

namespace Flat

/-- A storage with a cell for every place of its shape. -/
def Storage.Full (s : Storage α) : Prop :=
  s.data.length = s.rows * s.cols

theorem Storage.full_of (m : DenseMatrix α) : (Storage.of m).Full :=
  m.grid.length_toList

theorem Storage.Full.exists_of {s : Storage α} (full : s.Full) : ∃ m, s = .of m :=
  ⟨⟨s.rows, s.cols, ⟨⟨s.data.toArray, full⟩⟩⟩, rfl⟩

theorem stored_eq_ok_iff {outcome : Except Fault (DenseMatrix α)} {s : Storage α} :
    stored outcome = .ok s ↔ ∃ p, outcome = .ok p ∧ s = .of p := by
  cases outcome with
  | error fault => simp [stored, carried, Except.map, Except.mapError]
  | ok p => simp [stored, carried, Except.map, Except.mapError, eq_comm]

theorem exists_stored_iff {outcome : Except Fault (DenseMatrix α)} :
    (∃ s, stored outcome = .ok s) ↔ ∃ p, outcome = .ok p := by
  constructor
  · rintro ⟨s, made⟩
    obtain ⟨p, result, -⟩ := stored_eq_ok_iff.mp made
    exact ⟨p, result⟩
  · rintro ⟨p, result⟩
    exact ⟨.of p, stored_eq_ok_iff.mpr ⟨p, result, rfl⟩⟩

section Laws

variable [Zero α]

theorem transposed_transposed_of (m : DenseMatrix α) :
    (transposed (.of m) >>= transposed) = .ok (.of m) := by
  rw [transposed_of, Checked.ok_bind, transposed_of, DenseMatrix.transpose_transpose]

variable [Add α] [Mul α]

def productOfTransposes (s t : Storage α) : Except Failure (Storage α) := do
  let u ← transposed t
  let v ← transposed s
  product u v

theorem productOfTransposes_of (a b : DenseMatrix α) :
    productOfTransposes (.of a) (.of b) = stored (b.transpose.mul a.transpose) := by
  rw [productOfTransposes, transposed_of, Checked.ok_bind, transposed_of, Checked.ok_bind,
    product_of]

structure Transposition (α : Type) [Zero α] [Add α] [Mul α] : Prop where
  involution : ∀ a : DenseMatrix α, a.transpose.transpose = a
  defined : ∀ a b : DenseMatrix α,
    (∃ p, a.mul b = .ok p) ↔ ∃ q, b.transpose.mul a.transpose = .ok q
  of_product : (∀ x y : α, x * y = y * x) → ∀ a b p : DenseMatrix α,
    a.mul b = .ok p → b.transpose.mul a.transpose = .ok p.transpose
  stored_transpose : ∀ s : Storage α, s.Full →
    ∃ t, transposed s = .ok t ∧ t.Full ∧ t.rows = s.cols ∧ t.cols = s.rows
  stored_involution : ∀ s : Storage α, s.Full → (transposed s >>= transposed) = .ok s
  stored_defined : ∀ s t : Storage α, s.Full → t.Full →
    ((∃ p, product s t = .ok p) ↔ ∃ q, productOfTransposes s t = .ok q)
  stored_of_product : (∀ x y : α, x * y = y * x) → ∀ s t p : Storage α, s.Full → t.Full →
    product s t = .ok p → ∃ q, transposed p = .ok q ∧ productOfTransposes s t = .ok q

/-- Transposing twice changes nothing. A product is defined with that of the transposes in the other
order, which is then its transpose if factors commute. -/
theorem transposition : Transposition α where
  involution := DenseMatrix.transpose_transpose
  defined := DenseMatrix.mul_transpose_eq_ok_iff
  of_product comm _ _ _ product := DenseMatrix.mul_transpose comm product
  stored_transpose s full := by
    obtain ⟨m, rfl⟩ := full.exists_of
    exact ⟨_, transposed_of m, Storage.full_of _, rfl, rfl⟩
  stored_involution s full := by
    obtain ⟨m, rfl⟩ := full.exists_of
    exact transposed_transposed_of m
  stored_defined s t left right := by
    obtain ⟨a, rfl⟩ := left.exists_of
    obtain ⟨b, rfl⟩ := right.exists_of
    rw [product_of, productOfTransposes_of, exists_stored_iff, exists_stored_iff]
    exact DenseMatrix.mul_transpose_eq_ok_iff a b
  stored_of_product comm s t p left right made := by
    obtain ⟨a, rfl⟩ := left.exists_of
    obtain ⟨b, rfl⟩ := right.exists_of
    rw [product_of] at made
    obtain ⟨m, product, rfl⟩ := stored_eq_ok_iff.mp made
    refine ⟨_, transposed_of m, ?_⟩
    rw [productOfTransposes_of, DenseMatrix.mul_transpose comm product]
    rfl

/-- A row of doubles whose sum depends on the order of its terms: from the left it is
0.6000000000000001. -/
def unevenRow : Grid Float 1 3 :=
  Grid.ofFn fun _ j => if j = 0 then 0.1 else if j = 1 then 0.2 else 0.3

def ones : Grid Float 3 2 :=
  Grid.ofFn fun _ _ => 1

theorem transposition_rounded :
    (∀ x y : Float, x * y = y * x) ∧ (unevenRow.mul ones).get 0 0 = 0.6000000000000001 ∧
      (DenseMatrix.ofGrid unevenRow).mul (.ofGrid ones) = .ok (.ofGrid (unevenRow.mul ones)) ∧
      (DenseMatrix.ofGrid ones).transpose.mul (DenseMatrix.ofGrid unevenRow).transpose =
        .ok (DenseMatrix.ofGrid (unevenRow.mul ones)).transpose ∧
      ∃ q, transposed (.ofGrid (unevenRow.mul ones)) = .ok q ∧
        productOfTransposes (.ofGrid unevenRow) (.ofGrid ones) = .ok q :=
  have cell : (unevenRow.mul ones).get 0 0 = 0.6000000000000001 := by decide +kernel
  have made : (DenseMatrix.ofGrid unevenRow).mul (.ofGrid ones) =
      .ok (.ofGrid (unevenRow.mul ones)) := rfl
  ⟨Double.mul_comm, cell, made, transposition.of_product Double.mul_comm _ _ _ made,
    transposition.stored_of_product Double.mul_comm (.ofGrid unevenRow) (.ofGrid ones) _
      (Storage.full_of _) (Storage.full_of _)
      ((product_of _ _).trans (stored_eq_ok_iff.mpr ⟨_, made, rfl⟩))⟩

end Laws
end Flat
end MatrixCalculator
