import MatrixCalculator.Proofs.Flat.Plane
import MatrixCalculator.Proofs.Grid.Inverse

/-! The textbook account of new matrices. Products, powers and inverses of rounded numbers are
defined by the order of their steps; in exact arithmetic they are those of matrices. -/
namespace MatrixCalculator.Flat

open Workspace (Creation)

section Textbook

variable {α : Type} {m n p : Nat}

/-- The product, each cell accumulated from zero in the order of the inner index. -/
def accumulated [Zero α] [Add α] [Mul α] (A : Matrix (Fin m) (Fin n) α)
    (B : Matrix (Fin n) (Fin p) α) : Matrix (Fin m) (Fin p) α :=
  Matrix.of fun i j => (List.finRange n).foldl (fun total k => total + A i k * B k j) 0

/-- A product of `k` copies of a matrix, with identities and bracketed in any way. -/
inductive Powers [Zero α] [One α] [Add α] [Mul α] (A : Matrix (Fin n) (Fin n) α) :
    Nat → Matrix (Fin n) (Fin n) α → Prop
  | zero : Powers A 0 1
  | one : Powers A 1 A
  | mul {j k : Nat} {B C : Matrix (Fin n) (Fin n) α} (left : Powers A j B) (right : Powers A k C) :
      Powers A (j + k) (accumulated B C)

variable [Scalar α]

def raised (A : Matrix (Fin n) (Fin n) α) (k : Nat) : Matrix (Fin n) (Fin n) α :=
  ((Grid.ofMatrix A).power k).toMatrix

def Inverts (A B : Matrix (Fin n) (Fin n) α) : Prop :=
  (Grid.ofMatrix A).inverse.outcome = .ok (Grid.ofMatrix B)

def Holds (memory : Memory α) (name : String) (A : Matrix (Fin m) (Fin n) α) : Prop :=
  ∃ s, memory name = some s ∧ s.Shows A

inductive Makes (memory : Memory α) :
    Creation α → {m n : Nat} → Matrix (Fin m) (Fin n) α → Prop
  | zeros (m n : Nat) : Makes memory (.shaped m n none) (0 : Matrix (Fin m) (Fin n) α)
  | shaped {m n : Nat} {cells : List α} {A : Matrix (Fin m) (Fin n) α}
      (listed : Storage.Shows ⟨m, n, cells⟩ A) : Makes memory (.shaped m n (some cells)) A
  | identity (n : Nat) : Makes memory (.identity n) (1 : Matrix (Fin n) (Fin n) α)
  | scalar (x : α) : Makes memory (.scalar x) (Matrix.of fun (_ _ : Fin 1) => x)
  | rows {m n : Nat} (A : Matrix (Fin (m + 1)) (Fin n) α) :
      Makes memory (.rows (List.ofFn fun i => List.ofFn (A i))) A
  | noRows (A : Matrix (Fin 0) (Fin 0) α) : Makes memory (.rows []) A
  | copy {m n : Nat} {source : String} {A : Matrix (Fin m) (Fin n) α}
      (held : Holds memory source A) : Makes memory (.copy source) A
  | transpose {m n : Nat} {source : String} {A : Matrix (Fin m) (Fin n) α}
      (held : Holds memory source A) : Makes memory (.transpose source) A.transpose
  | inverse {n : Nat} {source : String} {A B : Matrix (Fin n) (Fin n) α}
      (held : Holds memory source A) (inverts : Inverts A B) : Makes memory (.inverse source) B
  | sum {m n : Nat} {left right : String} {A B : Matrix (Fin m) (Fin n) α}
      (first : Holds memory left A) (second : Holds memory right B) :
      Makes memory (.sum left right) (A + B)
  | product {m n p : Nat} {left right : String} {A : Matrix (Fin m) (Fin n) α}
      {B : Matrix (Fin n) (Fin p) α} (first : Holds memory left A)
      (second : Holds memory right B) : Makes memory (.product left right) (accumulated A B)
  | scaled {m n : Nat} {source : String} {A : Matrix (Fin m) (Fin n) α}
      (held : Holds memory source A) (factor : α) :
      Makes memory (.scaled source factor) (A.map (· * factor))
  | power {n : Nat} {source : String} {exponent : α} {k : Int} {A C : Matrix (Fin n) (Fin n) α}
      (held : Holds memory source A) (whole : isIntegral exponent = true)
      (near : Scalar.nearest exponent = some k) (base : if k < 0 then Inverts A C else C = A) :
      Makes memory (.power source exponent) (raised C k.natAbs)

theorem inverts_toMatrix {g h : Grid α n n} :
    Inverts g.toMatrix h.toMatrix ↔ g.inverse.outcome = .ok h := by
  rw [Inverts, Grid.ofMatrix_toMatrix, Grid.ofMatrix_toMatrix]

end Textbook

section Exact

variable {α : Type} {m n p : Nat}

theorem toMatrix_mul_accumulated [Zero α] [Add α] [Mul α] (g : Grid α m n) (h : Grid α n p) :
    (g.mul h).toMatrix = accumulated g.toMatrix h.toMatrix :=
  Matrix.ext fun i j => Grid.get_mul g h i j

theorem powers_timesPower [Zero α] [One α] [Add α] [Mul α] {A : Matrix (Fin n) (Fin n) α}
    (k : Nat) {i j : Nat} {result base : Grid α n n}
    (first : Powers A j result.toMatrix) (second : Powers A i base.toMatrix) :
    Powers A (j + i * k) (Grid.timesPower result base k).toMatrix := by
  -- The result has `j` copies and the base `i`; a step moves `i * (k % 2)` of them.
  induction k using Nat.strongRecOn generalizing i j result base with
  | ind k ih =>
    rw [Grid.timesPower]
    split
    · next zero =>
      rwa [zero, Nat.mul_zero, Nat.add_zero]
    · next positive =>
      have odd : Powers A (j + i * (k % 2))
          (if k % 2 = 1 then result.mul base else result).toMatrix := by
        rcases Nat.mod_two_eq_zero_or_one k with even | odd
        · rw [even, if_neg Nat.zero_ne_one, Nat.mul_zero, Nat.add_zero]
          exact first
        · rw [odd, if_pos rfl, Nat.mul_one, toMatrix_mul_accumulated]
          exact .mul first second
      have squared : Powers A (i + i) (base.mul base).toMatrix := by
        rw [toMatrix_mul_accumulated]
        exact .mul second second
      dsimp only
      split
      · next last =>
        have whole : k % 2 = k := by omega
        rw [whole] at odd ⊢
        exact odd
      · have total : j + i * (k % 2) + (i + i) * (k / 2) = j + i * k := by
          conv_rhs => rw [← Nat.mod_add_div k 2]
          ring
        rw [← total]
        exact ih (k / 2) (by omega) odd squared

theorem powers_raised [Scalar α] (A : Matrix (Fin n) (Fin n) α) (k : Nat) :
    Powers A k (raised A k) := by
  have start : Powers A 0 (Grid.identity n : Grid α n n).toMatrix := by
    rw [Grid.toMatrix_identity]
    exact .zero
  have base : Powers A 1 (Grid.ofMatrix A).toMatrix := by
    rw [Grid.toMatrix_ofMatrix]
    exact .one
  have powers := powers_timesPower k start base
  rwa [Nat.zero_add, Nat.one_mul] at powers

theorem accumulated_eq_mul (A : Matrix (Fin m) (Fin n) ℚ) (B : Matrix (Fin n) (Fin p) ℚ) :
    accumulated A B = A * B := by
  ext i j
  rw [Matrix.mul_apply, ← Grid.foldl_add_eq_sum]
  rfl

theorem Powers.eq_pow {A B : Matrix (Fin n) (Fin n) ℚ} {k : Nat} (powers : Powers A k B) :
    B = A ^ k := by
  induction powers with
  | zero => rw [pow_zero]
  | one => rw [pow_one]
  | mul _ _ left right => rw [accumulated_eq_mul, left, right, pow_add]

theorem Inverts.mul_eq_one {A B : Matrix (Fin n) (Fin n) ℚ} (inverts : Inverts A B) :
    A * B = 1 ∧ B * A = 1 := by
  obtain ⟨size, computed, _⟩ := Grid.determinant_ok (Grid.ofMatrix A)
  cases small : isZero size with
  | true => simp [Inverts, Grid.inverse, computed, small] at inverts
  | false =>
    obtain ⟨h, found, left, right⟩ := Grid.inverse_ok computed small
    cases Except.ok.inj (inverts.symm.trans found)
    have products := And.intro (congrArg Grid.toMatrix right) (congrArg Grid.toMatrix left)
    simpa using products

end Exact

end MatrixCalculator.Flat
