import Mathlib.Algebra.Order.Field.Power
import Mathlib.Algebra.Order.Field.Rat
import Mathlib.Tactic.FieldSimp
import Mathlib.Tactic.Linarith
import Mathlib.Tactic.Positivity
import Mathlib.Tactic.Ring
import TableQuery.Proofs.Number.Rounding

/-!
The grid that rounding is done to. A magnitude lies on the grid when its local spacing divides it,
and the grid has no other point between two neighbouring multiples of a local spacing. So the
nearest grid point is one of two neighbours, and of two neighbours only one has an even significand.
-/

namespace TableQuery

theorem log2_le_log2 {number larger : Nat} (ordered : number ≤ larger) :
    number.log2 ≤ larger.log2 := by
  by_cases isZero : number = 0
  · rw [isZero]
    exact Nat.zero_le _
  · rw [Nat.le_log2 (by omega)]
    exact Nat.le_trans (Nat.log2_self_le isZero) ordered

theorem spacing_dvd_spacing {quanta larger : Nat} (ordered : quanta ≤ larger) :
    spacing quanta ∣ spacing larger := by
  have logs := log2_le_log2 ordered
  exact Nat.pow_dvd_pow 2 (by omega)

/-- A magnitude that is not on the finest grid reaches the power of two below it in whole steps. -/
theorem spacing_le_floor {quanta : Nat} (coarse : 52 < quanta.log2) :
    2 ^ quanta.log2 ≤ quanta / spacing quanta * spacing quanta := by
  have nonzero : quanta ≠ 0 := by
    rintro rfl
    exact absurd coarse (by decide)
  have split : 2 ^ quanta.log2 = 2 ^ 52 * spacing quanta := by
    rw [spacing, Nat.pow_eq, ← Nat.pow_add]
    have sum : 52 + (quanta.log2 - 52) = quanta.log2 := by omega
    rw [sum]
  rw [split]
  apply Nat.mul_le_mul_right
  rw [Nat.le_div_iff_mul_le (spacing_pos quanta), ← split]
  exact Nat.log2_self_le nonzero

theorem spacing_dvd_of_floor_le {quanta other : Nat}
    (above : quanta / spacing quanta * spacing quanta ≤ other) :
    spacing quanta ∣ spacing other := by
  by_cases coarse : 52 < quanta.log2
  · have reached := Nat.le_trans (spacing_le_floor coarse) above
    have same : spacing (2 ^ quanta.log2) = spacing quanta := by
      rw [spacing, spacing, Nat.log2_two_pow]
    rw [← same]
    exact spacing_dvd_spacing reached
  · have finest : spacing quanta = 1 := by
      have unshifted : quanta.log2 - 52 = 0 := by omega
      rw [spacing, unshifted]
    rw [finest]
    exact Nat.one_dvd _

def OnGrid (quanta : Nat) : Prop := spacing quanta ∣ quanta

/-- How many steps of its own grid a magnitude is. -/
def significand (quanta : Nat) : Nat := quanta / spacing quanta

/-- Between two neighbouring multiples of the local spacing there is no other grid point, because
every grid point above the lower one is a multiple of this spacing, too. -/
theorem le_floor_or_next_le (quanta : Nat) {other : Nat} (onGrid : OnGrid other) :
    other ≤ significand quanta * spacing quanta ∨
      (significand quanta + 1) * spacing quanta ≤ other := by
  by_cases below : other ≤ significand quanta * spacing quanta
  · exact .inl below
  · right
    have finer := spacing_dvd_of_floor_le (Nat.le_of_not_le below)
    obtain ⟨units, split⟩ := Nat.dvd_trans finer onGrid
    rw [split, Nat.mul_comm (spacing quanta)] at below ⊢
    apply Nat.mul_le_mul_right
    exact Nat.lt_of_mul_lt_mul_right (Nat.lt_of_not_le below)

theorem significand_lt (quanta : Nat) : significand quanta < Nat.pow 2 53 := div_spacing_lt quanta

theorem significand_mul (quanta : Nat) (onGrid : OnGrid quanta) :
    significand quanta * spacing quanta = quanta := Nat.div_mul_cancel onGrid

/-- Even steps of the grid make an even significand. At a power of two the grid becomes coarser and
the number of steps is halved, but it is halved to an even number there. -/
theorem two_dvd_significand {units : Nat} (exponent : Nat) (bound : units ≤ Nat.pow 2 53)
    (even : 2 ∣ units) : 2 ∣ significand (units * Nat.pow 2 exponent) := by
  rcases Nat.lt_or_eq_of_le bound with small | full
  · have finer := spacing_mul_pow_dvd exponent small
    rw [significand, Nat.mul_div_assoc _ finer]
    exact Nat.dvd_trans even (Nat.dvd_mul_right _ _)
  · have power : units * Nat.pow 2 exponent = 2 ^ (53 + exponent) := by
      rw [full, Nat.pow_eq, Nat.pow_eq, Nat.pow_add]
    have coarser : 53 + exponent = 52 + (53 + exponent - 52) := by omega
    have value : significand (2 ^ (53 + exponent)) = 2 ^ 52 := by
      rw [significand, spacing, Nat.log2_two_pow, Nat.pow_eq]
      apply Nat.div_eq_of_eq_mul_left (Nat.two_pow_pos _)
      rw [← Nat.pow_add, ← coarser]
    rw [power, value]
    exact Nat.dvd_of_mod_eq_zero rfl

theorem not_two_dvd_significand_next {quanta : Nat} (even : 2 ∣ significand quanta) :
    ¬2 ∣ significand ((significand quanta + 1) * spacing quanta) := by
  have small := significand_lt quanta
  have notFull : significand quanta + 1 ≠ Nat.pow 2 53 := by
    intro full
    have isEven : 2 ∣ Nat.pow 2 53 := Nat.dvd_of_mod_eq_zero rfl
    omega
  have finer := spacing_mul_pow_dvd (quanta.log2 - 52) (Nat.lt_of_le_of_ne small notFull)
  have coarser : spacing quanta ∣ spacing ((significand quanta + 1) * spacing quanta) := by
    apply spacing_dvd_of_floor_le
    exact Nat.mul_le_mul_right _ (Nat.le_succ _)
  have same : spacing ((significand quanta + 1) * spacing quanta) = spacing quanta :=
    Nat.dvd_antisymm finer coarser
  have value : significand ((significand quanta + 1) * spacing quanta) =
      significand quanta + 1 := by
    rw [significand, same, Nat.mul_div_cancel _ (spacing_pos quanta)]
  rw [value]
  omega

/-- A grid point nearest to an exact number of quanta. Of two that are equally near, the one with
the even significand. -/
structure NearestOnGrid (quanta : Nat) (exact : ℚ) : Prop where
  onGrid : OnGrid quanta
  nearest : ∀ other : Nat, OnGrid other → |(quanta : ℚ) - exact| ≤ |(other : ℚ) - exact|
  even : ∀ other : Nat, OnGrid other → other ≠ quanta →
    |(quanta : ℚ) - exact| = |(other : ℚ) - exact| → 2 ∣ significand quanta

theorem nearest_on_grid_low {low high : Nat} {exact : ℚ} (onGrid : OnGrid low)
    (gap : ∀ other, OnGrid other → other ≤ low ∨ high ≤ other) (above : (low : ℚ) ≤ exact)
    (nearer : exact - low ≤ high - exact)
    (tie : exact - low = high - exact → 2 ∣ significand low) : NearestOnGrid low exact := by
  have distance : |(low : ℚ) - exact| = exact - low := by
    rw [abs_sub_comm]
    exact abs_of_nonneg (sub_nonneg.2 above)
  constructor
  · exact onGrid
  · intro other otherOnGrid
    rw [distance, abs_sub_comm]
    rcases gap other otherOnGrid with below | beyond
    · have cast : (other : ℚ) ≤ low := by exact_mod_cast below
      exact le_trans (by linarith) (le_abs_self _)
    · have cast : (high : ℚ) ≤ other := by exact_mod_cast beyond
      exact le_trans (by linarith) (neg_le_abs _)
  · intro other otherOnGrid different same
    rw [distance, abs_sub_comm] at same
    rcases gap other otherOnGrid with below | beyond
    · have cast : (other : ℚ) < low := by exact_mod_cast Nat.lt_of_le_of_ne below different
      have farther := le_abs_self (exact - other)
      linarith
    · have cast : (high : ℚ) ≤ other := by exact_mod_cast beyond
      have farther := neg_le_abs (exact - other)
      apply tie
      apply le_antisymm nearer
      linarith [abs_of_nonpos (show exact - other ≤ 0 by linarith)]

theorem nearest_on_grid_high {low high : Nat} {exact : ℚ} (onGrid : OnGrid high)
    (gap : ∀ other, OnGrid other → other ≤ low ∨ high ≤ other) (below : exact ≤ high)
    (nearer : high - exact ≤ exact - low)
    (tie : high - exact = exact - low → 2 ∣ significand high) : NearestOnGrid high exact := by
  have distance : |(high : ℚ) - exact| = high - exact := abs_of_nonneg (sub_nonneg.2 below)
  constructor
  · exact onGrid
  · intro other otherOnGrid
    rw [distance]
    rcases gap other otherOnGrid with under | beyond
    · have cast : (other : ℚ) ≤ low := by exact_mod_cast under
      exact le_trans (by linarith) (neg_le_abs _)
    · have cast : (high : ℚ) ≤ other := by exact_mod_cast beyond
      exact le_trans (by linarith) (le_abs_self _)
  · intro other otherOnGrid different same
    rw [distance] at same
    rcases gap other otherOnGrid with under | beyond
    · have cast : (other : ℚ) ≤ low := by exact_mod_cast under
      apply tie
      apply le_antisymm nearer
      linarith [abs_of_nonpos (show (other : ℚ) - exact ≤ 0 by linarith)]
    · have cast : (high : ℚ) < other := by
        exact_mod_cast Nat.lt_of_le_of_ne beyond (Ne.symm different)
      have farther := le_abs_self ((other : ℚ) - exact)
      linarith

theorem round_half_even_cases (numerator denominator : Nat) :
    (roundHalfEven numerator denominator = numerator / denominator ∧
      2 * (numerator % denominator) ≤ denominator ∧
      (2 * (numerator % denominator) = denominator → 2 ∣ numerator / denominator)) ∨
    (roundHalfEven numerator denominator = numerator / denominator + 1 ∧
      denominator ≤ 2 * (numerator % denominator) ∧
      (2 * (numerator % denominator) = denominator → 2 ∣ numerator / denominator + 1)) := by
  unfold roundHalfEven
  dsimp only
  split
  · left
    omega
  split
  · right
    omega
  split
  · left
    omega
  · right
    omega

theorem two_mul_div_le_iff {denominator : Nat} (positive : 0 < denominator) (rest step : Nat) :
    2 * ((rest : ℚ) / denominator) ≤ step ↔ 2 * rest ≤ denominator * step := by
  have castPositive : (0 : ℚ) < denominator := by exact_mod_cast positive
  rw [← mul_div_assoc, div_le_iff₀ castPositive, mul_comm (step : ℚ)]
  norm_cast

theorem le_two_mul_div_iff {denominator : Nat} (positive : 0 < denominator) (rest step : Nat) :
    (step : ℚ) ≤ 2 * ((rest : ℚ) / denominator) ↔ denominator * step ≤ 2 * rest := by
  have castPositive : (0 : ℚ) < denominator := by exact_mod_cast positive
  rw [← mul_div_assoc, le_div_iff₀ castPositive, mul_comm (step : ℚ)]
  norm_cast

theorem div_eq_significand_add (numerator : Nat) {denominator : Nat} (positive : 0 < denominator) :
    (numerator : ℚ) / denominator =
      (significand (numerator / denominator) * spacing (numerator / denominator) : Nat) +
        (numerator % (denominator * spacing (numerator / denominator)) : Nat) /
          (denominator : ℚ) := by
  have castPositive : (0 : ℚ) < denominator := by exact_mod_cast positive
  have division := Nat.div_add_mod numerator (denominator * spacing (numerator / denominator))
  rw [← Nat.div_div_eq_div_mul, ← significand] at division
  generalize numerator % (denominator * spacing (numerator / denominator)) = rest at division ⊢
  generalize significand (numerator / denominator) = units at division ⊢
  generalize spacing (numerator / denominator) = step at division ⊢
  rw [← division]
  push_cast
  field_simp

theorem mod_div_le (numerator : Nat) {denominator step : Nat} (positive : 0 < denominator)
    (stepPositive : 0 < step) :
    ((numerator % (denominator * step) : Nat) : ℚ) / denominator ≤ step := by
  have castPositive : (0 : ℚ) < denominator := by exact_mod_cast positive
  have bound : numerator % (denominator * step) ≤ step * denominator := by
    rw [Nat.mul_comm step]
    exact Nat.le_of_lt (Nat.mod_lt _ (Nat.mul_pos positive stepPositive))
  rw [div_le_iff₀ castPositive]
  exact_mod_cast bound

/-- The rounding that runs finds the nearest grid point: the exact number lies between two
neighbours on the grid, and the remainder of the division tells which one is nearer. -/
theorem nearest_on_grid_nearest_quanta (numerator : Nat) {denominator : Nat}
    (positive : 0 < denominator) :
    NearestOnGrid (nearestQuanta numerator denominator) (numerator / denominator : ℚ) := by
  let whole := numerator / denominator
  let step := spacing whole
  let rest := numerator % (denominator * step)
  have units : numerator / (denominator * step) = significand whole :=
    (Nat.div_div_eq_div_mul ..).symm
  have onGrid : OnGrid (nearestQuanta numerator denominator) :=
    spacing_dvd_nearest_quanta numerator denominator
  have rounded : nearestQuanta numerator denominator =
      roundHalfEven numerator (denominator * step) * step := rfl
  have gap : ∀ other, OnGrid other →
      other ≤ significand whole * step ∨ (significand whole + 1) * step ≤ other :=
    fun _ => le_floor_or_next_le whole
  have bound := significand_lt whole
  have next : (((significand whole + 1) * step : Nat) : ℚ) =
      (significand whole * step : Nat) + step := by
    push_cast
    ring
  have offset : (0 : ℚ) ≤ (rest : ℚ) / denominator := by positivity
  have smaller : (rest : ℚ) / denominator ≤ step :=
    mod_div_le numerator positive (spacing_pos whole)
  have atMost := two_mul_div_le_iff positive rest step
  have atLeast := le_two_mul_div_iff positive rest step
  rw [rounded] at onGrid ⊢
  rw [div_eq_significand_add numerator positive]
  rcases round_half_even_cases numerator (denominator * step) with
    ⟨down, near, even⟩ | ⟨up, near, even⟩
  · -- The remainder is at most half a step, and the lower neighbour is taken.
    rw [down, units] at onGrid ⊢
    rw [units] at even
    have inLowerHalf := atMost.2 near
    apply nearest_on_grid_low onGrid gap
    · linarith
    · rw [next]
      linarith
    · intro tie
      rw [next] at tie
      have half := atLeast.1 (by linarith)
      exact two_dvd_significand _ (Nat.le_of_lt bound) (even (Nat.le_antisymm near half))
  · -- The remainder is at least half a step. The upper neighbour may be the next power of two.
    rw [up, units] at onGrid ⊢
    rw [units] at even
    have inUpperHalf := atLeast.2 near
    apply nearest_on_grid_high onGrid gap
    · rw [next]
      linarith
    · rw [next]
      linarith
    · intro tie
      rw [next] at tie
      have half := atMost.1 (by linarith)
      exact two_dvd_significand _ bound (even (Nat.le_antisymm half near))

theorem significand_below (places : Nat) :
    spacing ((Nat.pow 2 53 - 1) * Nat.pow 2 places) = Nat.pow 2 places ∧
      significand ((Nat.pow 2 53 - 1) * Nat.pow 2 places) = Nat.pow 2 53 - 1 := by
  have positive : 0 < Nat.pow 2 places := Nat.two_pow_pos places
  have small : Nat.pow 2 53 - 1 < Nat.pow 2 53 := by decide
  have finer := spacing_mul_pow_dvd places small
  have reached : 2 ^ (52 + places) ≤ (Nat.pow 2 53 - 1) * Nat.pow 2 places := by
    rw [Nat.pow_add]
    exact Nat.mul_le_mul_right _ (by decide)
  have coarser := spacing_dvd_spacing reached
  have power : spacing (2 ^ (52 + places)) = Nat.pow 2 places := by
    rw [spacing, Nat.log2_two_pow, Nat.add_sub_cancel_left]
  rw [power] at coarser
  have same := Nat.dvd_antisymm finer coarser
  refine ⟨same, ?_⟩
  rw [significand, same, Nat.mul_div_cancel _ positive]

theorem NearestOnGrid.lt_of_nearer {quanta low high : Nat} {exact : ℚ}
    (near : NearestOnGrid quanta exact) (lowOnGrid : OnGrid low) (ordered : low < high)
    (nearer : exact - low < high - exact) : quanta < high := by
  by_contra large
  have castLarge : (high : ℚ) ≤ quanta := by exact_mod_cast Nat.le_of_not_lt large
  have castOrdered : (low : ℚ) < high := by exact_mod_cast ordered
  have nearest := near.nearest low lowOnGrid
  have distance := le_abs_self ((quanta : ℚ) - exact)
  rcases abs_cases ((low : ℚ) - exact) with ⟨inside, -⟩ | ⟨outside, -⟩ <;> linarith

/-- Halfway between two neighbours of which the lower one is odd, rounding goes up. -/
theorem NearestOnGrid.le_of_nearer {quanta low high : Nat} {exact : ℚ}
    (near : NearestOnGrid quanta exact) (gap : quanta ≤ low ∨ high ≤ quanta)
    (highOnGrid : OnGrid high) (ordered : low < high) (odd : ¬2 ∣ significand low)
    (nearer : high - exact ≤ exact - low) : high ≤ quanta := by
  by_contra small
  have under : quanta ≤ low := gap.resolve_right small
  have castUnder : (quanta : ℚ) ≤ low := by exact_mod_cast under
  have castOrdered : (low : ℚ) < high := by exact_mod_cast ordered
  have nearest := near.nearest high highOnGrid
  have distance : |(quanta : ℚ) - exact| = exact - quanta := by
    rw [abs_sub_comm]
    exact abs_of_nonneg (by linarith)
  have reached : exact - high ≤ 0 := by
    by_contra beyond
    rw [not_le] at beyond
    have outside : |(high : ℚ) - exact| = exact - high := by
      rw [abs_sub_comm]
      exact abs_of_pos beyond
    rw [distance, outside] at nearest
    linarith
  have inside : |(high : ℚ) - exact| = high - exact := abs_of_nonneg (by linarith)
  rw [distance, inside] at nearest
  have same : (quanta : ℚ) = low := by linarith
  have isLow : quanta = low := by exact_mod_cast same
  have tie : |(quanta : ℚ) - exact| = |(high : ℚ) - exact| := by
    rw [distance, inside]
    linarith
  have even := near.even high highOnGrid (Nat.ne_of_gt (Nat.lt_of_not_le small)) tie
  rw [isLow] at even
  exact odd even

/-- Rounding reaches a power of two from half a step below it on. The number of places is a variable
here, so that no power is ever computed. -/
theorem NearestOnGrid.lt_iff {quanta top exponent : Nat} {exact : ℚ}
    (near : NearestOnGrid quanta exact) (isTop : top = Nat.pow 2 exponent) (places : Nat)
    (sum : exponent = 53 + places) : quanta < top ↔ exact < (2 ^ 53 - 1 / 2) * 2 ^ places := by
  have power : top = Nat.pow 2 53 * Nat.pow 2 places := by
    rw [isTop, sum]
    exact Nat.pow_add 2 53 places
  let below := (Nat.pow 2 53 - 1) * Nat.pow 2 places
  have positive : 0 < Nat.pow 2 places := Nat.two_pow_pos places
  have castPower : ((Nat.pow 2 places : Nat) : ℚ) = 2 ^ places := Nat.cast_pow 2 places
  have castTop : (top : ℚ) = 2 ^ 53 * 2 ^ places := by
    rw [power, Nat.cast_mul, castPower]
    rfl
  have castBelow : (below : ℚ) = 2 ^ 53 * 2 ^ places - 2 ^ places := by
    rw [Nat.cast_mul, castPower]
    norm_num
    ring
  obtain ⟨step, units⟩ := significand_below places
  have next : (significand below + 1) * spacing below = top := by
    rw [units, step, power]
  have belowOnGrid : OnGrid below := spacing_dvd_mul_pow places (by decide)
  have topOnGrid : OnGrid top := by
    rw [power]
    exact spacing_dvd_mul_pow places (Nat.le_refl _)
  have ordered : below < top := by
    rw [power]
    exact Nat.mul_lt_mul_of_pos_right (by decide) positive
  have odd : ¬2 ∣ significand below := by
    rw [units]
    decide
  have gap := le_floor_or_next_le below near.onGrid
  rw [significand_mul below belowOnGrid, next] at gap
  constructor
  · intro small
    by_contra large
    rw [not_lt] at large
    exact Nat.not_le_of_lt small (near.le_of_nearer gap topOnGrid ordered odd (by linarith))
  · intro small
    exact near.lt_of_nearer belowOnGrid ordered (by linarith)

end TableQuery
