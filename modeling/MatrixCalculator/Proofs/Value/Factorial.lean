import MatrixCalculator.Proofs.Checked.Elementary
import MatrixCalculator.Proofs.Double.Multiplication
import MatrixCalculator.Proofs.Double.Whole
import Mathlib.Algebra.Order.Floor.Semifield

/-! Factorials of doubles. The product grows past the largest double with the factor 171, and stays
infinite from there on. The factorial of a number is that of its whole part except between 170 and
171, where it is infinite and that of the whole part is not. -/
namespace MatrixCalculator.Value

open Float.Model

/-- The product of the whole numbers from two on, taken up from the left. -/
def ascendingProduct (n : Nat) : Float :=
  (Checked.between 2 (n + 1)).foldl (fun total i => total * Float.ofNat i) 1

theorem product_eq (n : Nat) : product n = ascendingProduct n :=
  Checked.product_between n

theorem product_succ (n : Nat) : product (n + 1) = product n * Float.ofNat (n + 1) := by
  rw [product, List.range_succ, List.foldl_append]
  rfl

theorem eq_infinity {x : Float} (infinite : x.toModel.unpack = .infinity .positive) :
    x = 1 / 0 := by
  have packed : pack x.toModel.unpack = x.toModel := Double.pack_unpack x.toModel
  rw [infinite] at packed
  exact congrArg Float.ofModel packed.symm

/-- The largest factorial that is a double. -/
theorem product_largest : product 170 = Float.ofBits 0x7fa4ab7864418635 := by
  decide +kernel

theorem product_first_infinite : product 171 = 1 / 0 := by
  rw [product_succ, product_largest]
  decide +kernel

theorem exact_product_of_le {m n : Nat} (le : m ≤ n)
    (unbounded : Double.exact (product m) = none) : Double.exact (product n) = none := by
  induction n, le using Nat.le_induction with
  | base => exact unbounded
  | succ n _ ih =>
    rw [product_succ]
    exact Double.exact_mul_of_none ih _

theorem isInf_product_of_le {n : Nat} (small : n ≤ 170) : (product n).isInf = false := by
  have last : (Double.exact (product 170)).isSome := by
    rw [product_largest]
    decide +kernel
  cases finite : Double.exact (product n) with
  | none =>
    rw [exact_product_of_le small finite] at last
    contradiction
  | some value => exact ((Double.exact_isSome_iff _).mp (finite ▸ rfl)).2

/-- From the first infinite product on, every factor is a positive double, and infinity stays. -/
theorem product_of_lt {n : Nat} (large : 170 < n) (bounded : n ≤ Double.largest) :
    product n = 1 / 0 := by
  induction n, large using Nat.le_induction with
  | base => exact product_first_infinite
  | succ n _ ih =>
    obtain ⟨m, q, some, factor⟩ := Double.unpack_ofNat (Nat.succ_pos n) bounded
    rw [product_succ, ih (Nat.le_of_succ_le bounded)]
    exact eq_infinity (Double.infinite_mul rfl factor)

theorem isInf_product_iff {n : Nat} (bounded : n ≤ Double.largest) :
    (product n).isInf = true ↔ 170 < n := by
  constructor
  · intro infinite
    by_contra small
    rw [isInf_product_of_le (Nat.le_of_not_lt small)] at infinite
    exact Bool.false_ne_true infinite
  · intro large
    rw [product_of_lt large bounded]
    rfl

theorem lt_factorial_iff {m top : Nat} (last : m.factorial ≤ top) (first : top < (m + 1).factorial)
    (n : Nat) : top < n.factorial ↔ m < n := by
  constructor
  · intro exceeds
    by_contra small
    have within := (Nat.factorial_le (Nat.le_of_not_lt small)).trans last
    exact exceeds.not_ge within
  · intro large
    exact first.trans_le (Nat.factorial_le large)

theorem largest_lt_factorial_iff (n : Nat) : Double.largest < n.factorial ↔ 170 < n :=
  lt_factorial_iff (by decide +kernel) (by decide +kernel) n

theorem toNat_truncated {value : ℚ} (nonneg : 0 ≤ value) :
    (Rounding.truncated value).toNat = ⌊value⌋₊ := by
  have numerator : 0 ≤ value.num := Rat.num_nonneg.mpr nonneg
  have same : Rounding.truncated value = ⌊value⌋ := by
    rw [Rounding.truncated, if_neg (not_lt.mpr numerator), Rat.floor_def', Int.natCast_div,
      Int.natAbs_of_nonneg numerator]
  rw [same]
  rfl

section Finite

variable {x : Float} {value : ℚ}

theorem factorial_of_exact (known : Double.exact x = some value) (nonneg : 0 ≤ value) :
    (scalar x).factorial =
      .ok (scalar (if 170 < value then 1 / 0 else product ⌊value⌋₊)) := by
  have zero : Double.exact 0 = some 0 := by decide +kernel
  have bound : Double.exact largestFactorial = some 170 := by decide +kernel
  have lower : ¬x < 0 := by
    rw [Double.lt_iff_of_exact known zero]
    exact not_lt.mpr nonneg
  have upper : x > largestFactorial ↔ 170 < value := Double.lt_iff_of_exact bound known
  have finite : Scalar.exact x = some value := known
  show (if x < 0 then _ else if x > largestFactorial then _ else _) = _
  rw [if_neg lower]
  by_cases large : 170 < value
  · rw [if_pos (upper.mpr large), if_pos large]
    rfl
  · rw [if_neg (mt upper.mp large), if_neg large, finite, ← toNat_truncated nonneg]
    rfl

theorem floor_le_largest (known : Double.exact x = some value) (nonneg : 0 ≤ value) :
    ⌊value⌋₊ ≤ Double.largest := by
  have bound := Double.abs_exact_le known
  rw [abs_of_nonneg nonneg] at bound
  exact Nat.floor_le_of_le bound

theorem infinite_ne_product {n : Nat} (small : n ≤ 170) :
    (.ok (scalar (1 / 0)) : Except Fault (Value Float)) ≠ .ok (scalar (product n)) := by
  intro same
  have finite := isInf_product_of_le small
  rw [← scalar.inj (Except.ok.inj same)] at finite
  contradiction

theorem floor_cases (value : ℚ) :
    value ≤ 170 ∧ ⌊value⌋ ≤ 170 ∨ (170 < value ∧ value < 171) ∧ ⌊value⌋ = 170 ∨
      171 ≤ value ∧ 171 ≤ ⌊value⌋ := by
  rcases le_or_gt value 170 with small | above
  · exact .inl ⟨small, Int.floor_le_iff.mpr (by push_cast; linarith)⟩
  · rcases lt_or_ge value 171 with below | large
    · refine .inr (.inl ⟨⟨above, below⟩, Int.floor_eq_iff.mpr ?_⟩)
      push_cast
      constructor <;> linarith
    · exact .inr (.inr ⟨large, Int.le_floor.mpr (by exact_mod_cast large)⟩)

theorem factorial_eq_product_iff (known : Double.exact x = some value) (nonneg : 0 ≤ value) :
    (scalar x).factorial = .ok (scalar (product ⌊value⌋₊)) ↔ ¬(170 < value ∧ value < 171) := by
  have same : (⌊value⌋₊ : ℤ) = ⌊value⌋ := Int.natCast_floor_eq_floor nonneg
  rw [factorial_of_exact known nonneg]
  rcases floor_cases value with ⟨small, -⟩ | ⟨between, floor⟩ | ⟨large, floor⟩
  · rw [if_neg small.not_gt]
    exact iff_of_true rfl fun between => small.not_gt between.1
  · have last : ⌊value⌋₊ ≤ 170 := by omega
    rw [if_pos between.1]
    exact iff_of_false (infinite_ne_product last) (not_not.mpr between)
  · have above : 170 < ⌊value⌋₊ := by omega
    rw [if_pos (by linarith), product_of_lt above (floor_le_largest known nonneg)]
    exact iff_of_true rfl fun between => large.not_gt between.2

theorem factorial_of_natural {n : Nat} (known : Double.exact x = some (n : ℚ)) :
    (scalar x).factorial = .ok (scalar (product n)) := by
  have law := factorial_eq_product_iff known (Nat.cast_nonneg n)
  rw [Nat.floor_natCast] at law
  refine law.mpr fun between => ?_
  have above : 170 < n := by exact_mod_cast between.1
  have below : n < 171 := by exact_mod_cast between.2
  omega

/-- How the factorial of a double compares with that of its whole part: computed on the whole part,
taken as a product, and in the exact whole numbers. -/
structure FactorialOfWhole (x : Float) (value : ℚ) : Prop where
  whole : ∃ y, Double.exact y = some (⌊value⌋ : ℚ)
  of_whole : ∀ y, Double.exact y = some (⌊value⌋ : ℚ) →
    ((scalar x).factorial = (scalar y).factorial ↔ ¬(170 < value ∧ value < 171))
  accumulated : (scalar x).factorial = .ok (scalar (ascendingProduct ⌊value⌋₊)) ↔
    ¬(170 < value ∧ value < 171)
  infinite : ∃ y, (scalar x).factorial = .ok (scalar y) ∧ (y.isInf = true ↔ 170 < value)
  unbounded : (ascendingProduct ⌊value⌋₊).isInf = true ↔ 170 < ⌊value⌋
  exceeds : Double.largest < ⌊value⌋₊.factorial ↔ 170 < ⌊value⌋

/-- The factorial of a number that is not negative is that of its whole part, and the product of the
whole numbers up to it, exactly unless the number lies between 170 and 171. It is infinite above 170.
The product is infinite, and the exact factorial too large for a double, from 171 on. -/
theorem factorial_of_whole (known : Double.exact x = some value) (nonneg : 0 ≤ value) :
    FactorialOfWhole x value := by
  have same : (⌊value⌋₊ : ℤ) = ⌊value⌋ := Int.natCast_floor_eq_floor nonneg
  have bounded := floor_le_largest known nonneg
  constructor
  case whole => exact Double.exists_exact_floor known nonneg
  case of_whole =>
    intro y whole
    rw [← same, Int.cast_natCast] at whole
    rw [factorial_of_natural whole]
    exact factorial_eq_product_iff known nonneg
  case accumulated =>
    rw [← product_eq]
    exact factorial_eq_product_iff known nonneg
  case infinite =>
    refine ⟨_, factorial_of_exact known nonneg, ?_⟩
    by_cases large : 170 < value
    · rw [if_pos large]
      exact iff_of_true rfl large
    · rw [if_neg large, isInf_product_of_le (Nat.floor_le_of_le (not_lt.mp large))]
      exact iff_of_false Bool.false_ne_true large
  case unbounded =>
    rw [← product_eq, isInf_product_iff bounded]
    omega
  case exceeds =>
    rw [largest_lt_factorial_iff]
    omega

theorem factorial_of_whole_five_and_a_half :
    Double.exact 5.5 = some (11 / 2) ∧ (0 : ℚ) ≤ 11 / 2 ∧ FactorialOfWhole 5.5 (11 / 2) :=
  have known : Double.exact 5.5 = some (11 / 2) := by decide +kernel
  have nonneg : (0 : ℚ) ≤ 11 / 2 := by norm_num
  ⟨known, nonneg, factorial_of_whole known nonneg⟩

/-- The factorial of 170.5 is infinite. That of its whole part is a double. -/
theorem factorial_past_last :
    Double.exact 170.5 = some (341 / 2) ∧ Double.exact 170 = some (⌊(341 / 2 : ℚ)⌋ : ℚ) ∧
      (scalar 170.5).factorial = .ok (scalar (1 / 0)) ∧
      (scalar 170).factorial = .ok (scalar (Float.ofBits 0x7fa4ab7864418635)) ∧
      (scalar 170.5).factorial ≠ (scalar 170).factorial ∧
      (scalar 170.5).factorial ≠ .ok (scalar (ascendingProduct ⌊(341 / 2 : ℚ)⌋₊)) := by
  have known : Double.exact 170.5 = some (341 / 2) := by decide +kernel
  have whole : Double.exact 170 = some ((170 : Nat) : ℚ) := by decide +kernel
  have floor : ⌊(341 / 2 : ℚ)⌋₊ = 170 := by norm_num
  have unbounded := factorial_of_exact known (by norm_num)
  have last := factorial_of_natural whole
  rw [if_pos (by norm_num)] at unbounded
  have differs := infinite_ne_product (le_refl 170)
  refine ⟨known, by rw [whole]; norm_num, unbounded, ?_, ?_, ?_⟩
  · rw [last, product_largest]
  · rwa [unbounded, last]
  · rwa [unbounded, floor, ← product_eq]

end Finite

end MatrixCalculator.Value
