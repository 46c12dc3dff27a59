import MatrixCalculator.Proofs.Scalar.Order
import MatrixCalculator.Proofs.Tolerance.Doubles
import Mathlib.Order.WithBot

/-! Doubles as totally ordered scalars. All doubles but the undefined results are numbers: they
compare as the rational numbers that they stand for, with an infinity below and one above all. -/
namespace MatrixCalculator.Double

open Float.Model

variable {x y : Float} {a : ℚ}

def IsNumber (x : Float) : Prop :=
  x.isNaN = false

/-- The place of a number among the rational numbers and two infinities. -/
def rank (x : Float) : WithBot (WithTop ℚ) :=
  match x.toModel.unpack with
  | .infinity .negative => ⊥
  | .infinity .positive => ⊤
  | _ => (((exact x).getD 0 : WithTop ℚ) : WithBot (WithTop ℚ))

theorem rank_of_exact (known : exact x = some a) :
    rank x = ((a : WithTop ℚ) : WithBot (WithTop ℚ)) := by
  unfold rank
  rw [known]
  obtain ⟨s, shape, -⟩ | ⟨s, m, q, positive, shape, -, -⟩ := cases_of_exact known <;>
    rw [shape] <;> rfl

/-- A number is finite, or it is one of the two infinities. -/
theorem cases_of_isNumber (number : IsNumber x) :
    (∃ a, exact x = some a) ∨ x.toModel.unpack = .infinity .negative ∧ rank x = ⊥ ∨
      x.toModel.unpack = .infinity .positive ∧ rank x = ⊤ := by
  have defined : x.toModel.unpack.isNaN = false := number
  unfold exact rank
  cases shape : x.toModel.unpack with
  | infinity s => cases s <;> simp
  | notANumber => rw [shape] at defined; cases defined
  | zero s => exact .inl ⟨_, rfl⟩
  | finite s m q positive => exact .inl ⟨_, rfl⟩

/-- A finite double lies between the infinities. -/
theorem compare_infinities (known : exact x = some a) :
    x.toModel.unpack.compare (.infinity .negative) = some .gt ∧
      x.toModel.unpack.compare (.infinity .positive) = some .lt ∧
      UnpackedFloat.compare (.infinity .negative) x.toModel.unpack = some .lt ∧
      UnpackedFloat.compare (.infinity .positive) x.toModel.unpack = some .gt := by
  obtain ⟨s, shape, -⟩ | ⟨s, m, q, positive, shape, -, -⟩ := cases_of_exact known <;> rw [shape] <;>
    cases s <;> exact ⟨rfl, rfl, rfl, rfl⟩

theorem bot_lt_rank (a : ℚ) : ⊥ < ((a : WithTop ℚ) : WithBot (WithTop ℚ)) :=
  WithBot.bot_lt_coe _

theorem rank_lt_top (a : ℚ) : ((a : WithTop ℚ) : WithBot (WithTop ℚ)) < ⊤ :=
  WithBot.coe_lt_coe.mpr (WithTop.coe_lt_top a)

/-- Numbers compare as their places do. -/
theorem compare_rank (left : IsNumber x) (right : IsNumber y) :
    x.toModel.unpack.compare y.toModel.unpack = some (compare (rank x) (rank y)) := by
  obtain ⟨a, known⟩ | ⟨shape, place⟩ | ⟨shape, place⟩ := cases_of_isNumber left <;>
    obtain ⟨b, other⟩ | ⟨shape', place'⟩ | ⟨shape', place'⟩ := cases_of_isNumber right
  · have embedded : StrictMono fun c : ℚ => ((c : WithTop ℚ) : WithBot (WithTop ℚ)) :=
      fun _ _ less => WithBot.coe_lt_coe.mpr (WithTop.coe_lt_coe.mpr less)
    rw [compare_exact known other, rank_of_exact known, rank_of_exact other, ← cmp_eq_compare,
      ← cmp_eq_compare]
    exact congrArg some (embedded.cmp_map_eq a b).symm
  · rw [shape', place', rank_of_exact known, compare_gt_iff_gt.mpr (bot_lt_rank a)]
    exact (compare_infinities known).1
  · rw [shape', place', rank_of_exact known, compare_lt_iff_lt.mpr (rank_lt_top a)]
    exact (compare_infinities known).2.1
  · rw [shape, place, rank_of_exact other, compare_lt_iff_lt.mpr (bot_lt_rank b)]
    exact (compare_infinities other).2.2.1
  · rw [shape, shape', place, place', compare_eq_iff_eq.mpr rfl]
    rfl
  · rw [shape, shape', place, place', compare_lt_iff_lt.mpr bot_lt_top]
    rfl
  · rw [shape, place, rank_of_exact other, compare_gt_iff_gt.mpr (rank_lt_top b)]
    exact (compare_infinities other).2.2.2
  · rw [shape, shape', place, place', compare_gt_iff_gt.mpr bot_lt_top]
    rfl
  · rw [shape, shape', place, place', compare_eq_iff_eq.mpr rfl]
    rfl

theorem lt_iff_rank (left : IsNumber x) (right : IsNumber y) : x < y ↔ rank x < rank y := by
  rw [lt_iff, compare_rank left right, beq_iff_eq, Option.some.injEq, compare_lt_iff_lt]

theorem beq_iff_rank (left : IsNumber x) (right : IsNumber y) :
    (x == y) = true ↔ rank x = rank y := by
  rw [beq_eq, compare_rank left right, beq_iff_eq, Option.some.injEq, compare_eq_iff_eq]

theorem isNumber_of_exact (known : exact x = some a) : IsNumber x := by
  show x.toModel.unpack.isNaN = false
  obtain ⟨s, shape, -⟩ | ⟨s, m, q, positive, shape, -, -⟩ := cases_of_exact known <;> rw [shape] <;> rfl

theorem isNumber_magnitude (number : IsNumber x) : IsNumber (Scalar.magnitude x) := by
  have infinite {s : UnpackedFloat.Sign} (shape : x.toModel.unpack = .infinity s) :
      IsNumber (Scalar.magnitude x) := by
    show (Scalar.magnitude x).toModel.unpack.isNaN = false
    rw [magnitude_infinite shape]
    rfl
  obtain ⟨a, known⟩ | ⟨shape, -⟩ | ⟨shape, -⟩ := cases_of_isNumber number
  · exact isNumber_of_exact (exact_magnitude known)
  · exact infinite shape
  · exact infinite shape

/-- The doubles that are no undefined results are totally ordered, with the infinities and with
both zeros among them. -/
theorem totallyOrdered : Scalar.TotallyOrdered IsNumber where
  asymm left right less := by
    rw [lt_iff_rank left right] at less
    rw [lt_iff_rank right left]
    exact lt_asymm less
  between {x y z} first second third less := by
    rw [lt_iff_rank first third] at less
    rw [lt_iff_rank first second, lt_iff_rank second third]
    exact (lt_or_ge (rank x) (rank y)).imp_right fun le => lt_of_le_of_lt le less
  beq_iff left right := by
    rw [beq_iff_rank left right, lt_iff_rank left right, lt_iff_rank right left, not_lt, not_lt,
      and_comm]
    exact le_antisymm_iff
  magnitude := isNumber_magnitude
  zero := isNumber_of_exact exact_zero
  magnitude_zero {x} number zero := by
    have place := (beq_iff_rank number (isNumber_of_exact exact_zero)).mp zero
    rw [rank_of_exact exact_zero] at place
    obtain ⟨a, known⟩ | ⟨-, least⟩ | ⟨-, greatest⟩ := cases_of_isNumber number
    · rw [beq_iff_of_exact known exact_zero] at zero
      rw [beq_iff_of_exact (exact_magnitude known) exact_zero, zero, abs_zero]
    · exact absurd (least.symm.trans place) (bot_lt_rank 0).ne
    · exact absurd (place.symm.trans greatest) (rank_lt_top 0).ne
  sub_zero {x} _ := sub_zero_eq x
  tolerance := isNumber_of_exact exact_absoluteTolerance
  tolerance_pos := by
    rw [lt_iff_of_exact exact_zero exact_absoluteTolerance]
    norm_num

end MatrixCalculator.Double
