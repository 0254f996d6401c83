/-! Rounding a quotient to the nearest integer, a half to the even neighbour. -/

namespace RowStore

def roundDiv (numerator denominator : Nat) : Nat :=
  let quotient := numerator / denominator
  let rest := numerator % denominator
  if 2 * rest < denominator ∨ (2 * rest = denominator ∧ quotient % 2 = 0) then quotient
  else quotient + 1

theorem roundDiv_near {numerator denominator : Nat} (positive : 0 < denominator) :
    2 * (roundDiv numerator denominator * denominator) ≤ 2 * numerator + denominator ∧
      2 * numerator ≤ 2 * (roundDiv numerator denominator * denominator) + denominator := by
  have split := Nat.div_add_mod numerator denominator
  have small := Nat.mod_lt numerator positive
  have swap : numerator / denominator * denominator = denominator * (numerator / denominator) :=
    Nat.mul_comm ..
  unfold roundDiv
  simp only
  split
  · omega
  · rw [Nat.add_mul, Nat.one_mul, swap]
    omega

theorem roundDiv_even {numerator denominator : Nat}
    (half : 2 * (numerator % denominator) = denominator) :
    roundDiv numerator denominator % 2 = 0 := by
  unfold roundDiv
  simp only [half, Nat.lt_irrefl, true_and, false_or]
  split <;> omega

end RowStore
