import TableQuery.Number.Binary64

/-!
Rounding an exact quotient to the nearest double, ties to even. The grid to round to is read off the
whole part of the quotient, and rounding up to the next power of two stays on the coarser grid.
-/

namespace TableQuery

/-- The whole number nearest to `numerator / denominator`, the even one when two are equally
near. -/
def roundHalfEven (numerator denominator : Nat) : Nat :=
  let quotient := numerator / denominator
  let remainder := numerator % denominator
  if 2 * remainder < denominator then quotient
  else if denominator < 2 * remainder then quotient + 1
  else if quotient % 2 = 0 then quotient
  else quotient + 1

theorem round_half_even_le_succ (numerator denominator : Nat) :
    roundHalfEven numerator denominator ≤ numerator / denominator + 1 := by
  unfold roundHalfEven
  dsimp only
  split
  · omega
  · split
    · omega
    · split <;> omega

/-- A double has at most 53 binary digits: measured in steps of its own grid, every magnitude is
less than `2 ^ 53`. -/
theorem div_spacing_lt (quanta : Nat) : quanta / spacing quanta < Nat.pow 2 53 := by
  rw [spacing, Nat.pow_eq, Nat.pow_eq, Nat.div_lt_iff_lt_mul (Nat.two_pow_pos _), ← Nat.pow_add]
  exact Nat.lt_of_lt_of_le Nat.lt_log2_self (Nat.pow_le_pow_right (by omega) (by omega))

theorem spacing_mul_pow_dvd {units : Nat} (exponent : Nat) (bound : units < Nat.pow 2 53) :
    spacing (units * Nat.pow 2 exponent) ∣ Nat.pow 2 exponent := by
  by_cases zero : units = 0
  · rw [zero, Nat.zero_mul]
    exact Nat.one_dvd _
  · have nonzero : units * 2 ^ exponent ≠ 0 :=
      Nat.mul_ne_zero zero (Nat.ne_of_gt (Nat.two_pow_pos exponent))
    have short : (units * 2 ^ exponent).log2 < 53 + exponent := by
      rw [Nat.log2_lt nonzero, Nat.pow_add]
      exact Nat.mul_lt_mul_of_pos_right bound (Nat.two_pow_pos exponent)
    have exponents : (units * 2 ^ exponent).log2 - 52 ≤ exponent := by omega
    exact Nat.pow_dvd_pow 2 exponents

theorem spacing_dvd_mul_pow {units : Nat} (exponent : Nat) (bound : units ≤ Nat.pow 2 53) :
    spacing (units * Nat.pow 2 exponent) ∣ units * Nat.pow 2 exponent := by
  by_cases small : units < Nat.pow 2 53
  · exact Nat.dvd_trans (spacing_mul_pow_dvd exponent small) (Nat.dvd_mul_left _ _)
  · have full : units * Nat.pow 2 exponent = 2 ^ (53 + exponent) := by
      rw [Nat.le_antisymm bound (Nat.le_of_not_lt small)]
      exact (Nat.pow_add 2 53 exponent).symm
    rw [full, spacing, Nat.log2_two_pow]
    exact Nat.pow_dvd_pow 2 (by omega)

/-- The multiple of the local spacing nearest to `numerator / denominator` quanta. -/
def nearestQuanta (numerator denominator : Nat) : Nat :=
  let step := spacing (numerator / denominator)
  roundHalfEven numerator (denominator * step) * step

theorem spacing_dvd_nearest_quanta (numerator denominator : Nat) :
    spacing (nearestQuanta numerator denominator) ∣ nearestQuanta numerator denominator := by
  apply spacing_dvd_mul_pow
  apply Nat.le_trans (round_half_even_le_succ _ _)
  rw [← Nat.div_div_eq_div_mul]
  exact div_spacing_lt _

namespace Binary64

def ofQuotient (negative : Bool) (numerator denominator : Nat) : Binary64 :=
  if bounded : nearestQuanta numerator denominator < quantaLimit then
    finite negative ⟨_, spacing_dvd_nearest_quanta numerator denominator, bounded⟩
  else infinite negative

end Binary64

end TableQuery
