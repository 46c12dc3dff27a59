/-! Rounding of exact quotients to whole numbers. A half goes to the even neighbour, so
the result is never more than half a unit away and a tie is never odd. -/
namespace MatrixCalculator.Rounding

/-- The whole number nearest to `n / d`. -/
def quotient (n d : Nat) : Nat :=
  let whole := n / d
  let rest := n % d
  if 2 * rest < d then whole
  else if d < 2 * rest then whole + 1
  else whole + whole % 2

def nearest (x : Rat) : Int :=
  let size : Int := quotient x.num.natAbs x.den
  if x.num < 0 then -size else size

def truncated (x : Rat) : Int :=
  let size : Int := (x.num.natAbs / x.den : Nat)
  if x.num < 0 then -size else size

theorem quotient_lower (n d : Nat) (positive : 0 < d) : 2 * n ≤ 2 * (quotient n d * d) + d := by
  have split := Nat.div_add_mod n d
  have bound := Nat.mod_lt n positive
  have commuted : d * (n / d) = n / d * d := Nat.mul_comm _ _
  simp only [quotient]
  split
  · omega
  · split <;> simp only [Nat.add_mul] <;> omega

theorem quotient_upper (n d : Nat) (positive : 0 < d) : 2 * (quotient n d * d) ≤ 2 * n + d := by
  have split := Nat.div_add_mod n d
  have bound := Nat.mod_lt n positive
  have commuted : d * (n / d) = n / d * d := Nat.mul_comm _ _
  simp only [quotient]
  split
  · omega
  · split
    · simp only [Nat.add_mul]; omega
    · rcases Nat.mod_two_eq_zero_or_one (n / d) with even | odd
      · simp only [even, Nat.add_zero]; omega
      · simp only [odd, Nat.add_mul]; omega

/-- A quotient halfway between two whole numbers is rounded to the even one. -/
theorem quotient_even_of_tie (n d : Nat) (tie : 2 * (n % d) = d) : quotient n d % 2 = 0 := by
  simp only [quotient, tie, Nat.lt_irrefl, if_false]
  omega

end MatrixCalculator.Rounding
