import TableQuery.Proofs.Number.Grid

/-!
The double nearest to an exact number. There is exactly one: ties go to the even significand, and
from half a step above the largest double on the answer is infinite. The exponents at which reading
a decimal stops short give the same answer as rounding it would.
-/

namespace TableQuery

theorem cast_quanta_per_one_pos : (0 : ℚ) < quantaPerOne := by
  exact_mod_cast quanta_per_one_pos

namespace Magnitude

theorem eq_of_quanta {magnitude other : Magnitude} (same : magnitude.quanta = other.quanta) :
    magnitude = other := by
  cases magnitude
  cases other
  cases same
  rfl

def value (magnitude : Magnitude) : ℚ := magnitude.quanta / quantaPerOne

/-- No double is nearer to the exact number, and where another one is as near, the significand of
this one is even. -/
structure IsNearest (magnitude : Magnitude) (exact : ℚ) : Prop where
  nearest : ∀ other : Magnitude, |magnitude.value - exact| ≤ |other.value - exact|
  even : ∀ other : Magnitude, other ≠ magnitude →
    |magnitude.value - exact| = |other.value - exact| → 2 ∣ significand magnitude.quanta

theorem value_sub_eq (magnitude : Magnitude) (exact : ℚ) :
    |magnitude.value - exact| =
      |(magnitude.quanta : ℚ) - exact * quantaPerOne| / quantaPerOne := by
  have positive := cast_quanta_per_one_pos
  have scaled : magnitude.value - exact =
      ((magnitude.quanta : ℚ) - exact * quantaPerOne) / quantaPerOne := by
    rw [sub_div, mul_div_cancel_right₀ _ positive.ne']
    rfl
  rw [scaled, abs_div, abs_of_pos positive]

theorem is_nearest_of_nearest_on_grid {magnitude : Magnitude} {exact : ℚ}
    (near : NearestOnGrid magnitude.quanta (exact * quantaPerOne)) : magnitude.IsNearest exact := by
  have positive := cast_quanta_per_one_pos
  constructor
  · intro other
    rw [value_sub_eq, value_sub_eq]
    exact div_le_div_of_nonneg_right (near.nearest other.quanta other.on_grid) positive.le
  · intro other different tie
    rw [value_sub_eq, value_sub_eq, div_left_inj' positive.ne'] at tie
    apply near.even other.quanta other.on_grid _ tie
    intro same
    exact different (eq_of_quanta same)

theorem value_lt_value {magnitude other : Magnitude} (less : magnitude.quanta < other.quanta) :
    magnitude.value < other.value := by
  have positive := cast_quanta_per_one_pos
  have castLess : (magnitude.quanta : ℚ) < other.quanta := by exact_mod_cast less
  exact div_lt_div_of_pos_right castLess positive

theorem IsNearest.sub_eq_sub {magnitude other : Magnitude} {exact : ℚ}
    (near : magnitude.IsNearest exact) (otherNear : other.IsNearest exact)
    (less : magnitude.quanta < other.quanta) : exact - magnitude.value = other.value - exact := by
  have tie := le_antisymm (near.nearest other) (otherNear.nearest magnitude)
  have ordered := value_lt_value less
  rcases abs_cases (magnitude.value - exact) with left | left
  · rcases abs_cases (other.value - exact) with right | right <;> linarith
  · rcases abs_cases (other.value - exact) with right | right <;> linarith

/-- No third double lies between them, as it would be nearer. -/
theorem IsNearest.next_eq {magnitude other : Magnitude} {exact : ℚ}
    (near : magnitude.IsNearest exact) (otherNear : other.IsNearest exact)
    (less : magnitude.quanta < other.quanta) :
    (significand magnitude.quanta + 1) * spacing magnitude.quanta = other.quanta := by
  have whole := significand_mul magnitude.quanta magnitude.on_grid
  have gap := le_floor_or_next_le magnitude.quanta other.on_grid
  rw [whole] at gap
  apply Nat.le_antisymm (gap.resolve_left (Nat.not_le_of_lt less))
  by_contra between
  rw [Nat.not_le] at between
  have onGrid : OnGrid ((significand magnitude.quanta + 1) * spacing magnitude.quanta) :=
    spacing_dvd_mul_pow _ (significand_lt magnitude.quanta)
  let next : Magnitude := ⟨_, onGrid, Nat.lt_trans between other.bounded⟩
  have above : magnitude.value < next.value := by
    apply value_lt_value
    calc
      magnitude.quanta = significand magnitude.quanta * spacing magnitude.quanta := whole.symm
      _ < (significand magnitude.quanta + 1) * spacing magnitude.quanta :=
        Nat.mul_lt_mul_of_pos_right (Nat.lt_succ_self _) (spacing_pos _)
  have under : next.value < other.value := value_lt_value between
  have middle := near.sub_eq_sub otherNear less
  have nearest := near.nearest next
  rcases abs_cases (magnitude.value - exact) with left | left
  · linarith
  · rcases abs_cases (next.value - exact) with right | right <;> linarith

theorem IsNearest.not_lt {magnitude other : Magnitude} {exact : ℚ}
    (near : magnitude.IsNearest exact) (otherNear : other.IsNearest exact) :
    ¬magnitude.quanta < other.quanta := by
  intro less
  have different : other ≠ magnitude := by
    rintro rfl
    exact Nat.lt_irrefl _ less
  have tie := le_antisymm (near.nearest other) (otherNear.nearest magnitude)
  have even := near.even other different tie
  have otherEven := otherNear.even magnitude different.symm tie.symm
  rw [← near.next_eq otherNear less] at otherEven
  exact not_two_dvd_significand_next even otherEven

/-- An exact number has one nearest double at most. Two of them would lie on either side of it as
neighbours, and of two neighbours only one is even. -/
theorem IsNearest.unique {magnitude other : Magnitude} {exact : ℚ}
    (near : magnitude.IsNearest exact) (otherNear : other.IsNearest exact) :
    magnitude = other := by
  have notLess := near.not_lt otherNear
  have notGreater := otherNear.not_lt near
  apply eq_of_quanta
  omega

end Magnitude

/-- Half a step above the largest double, which is `(2 ^ 53 - 1) * 2 ^ 971`. From here on rounding
gives infinity. -/
def overflowBound : ℚ := (2 ^ 53 - 1 / 2) * 2 ^ 971

namespace Binary64

/-- The double nearest to an exact number, with a sign of its own, since zero has two. From half a
step above the largest double on it is infinity. -/
inductive Rounds (negative : Bool) (exact : ℚ) : Binary64 → Prop
  | finite {magnitude : Magnitude} (small : exact < overflowBound)
      (near : magnitude.IsNearest exact) : Rounds negative exact (.finite negative magnitude)
  | infinite (large : overflowBound ≤ exact) : Rounds negative exact (.infinite negative)

theorem Rounds.unique {negative : Bool} {exact : ℚ} {double other : Binary64}
    (rounds : Rounds negative exact double) (again : Rounds negative exact other) :
    double = other := by
  cases rounds with
  | finite small near =>
      cases again with
      | finite _ otherNear => rw [near.unique otherNear]
      | infinite large => exact absurd small (not_lt_of_ge large)
  | infinite large =>
      cases again with
      | finite small => exact absurd small (not_lt_of_ge large)
      | infinite _ => rfl

theorem cast_quanta_per_one {places : Nat} (unit : quantaPerOne = Nat.pow 2 places) :
    (quantaPerOne : ℚ) = 2 ^ places := by
  rw [unit]
  exact Nat.cast_pow 2 places

theorem overflow_bound_mul : overflowBound * quantaPerOne = (2 ^ 53 - 1 / 2) * 2 ^ 2045 := by
  have unit : quantaPerOne = Nat.pow 2 1074 := rfl
  rw [overflowBound, cast_quanta_per_one unit, mul_assoc, ← pow_add]

theorem rounds_of_quotient (negative : Bool) (numerator : Nat) {denominator : Nat}
    (positive : 0 < denominator) {exact : ℚ}
    (same : exact * quantaPerOne = (numerator : ℚ) / denominator) :
    Rounds negative exact (ofQuotient negative numerator denominator) := by
  have near := nearest_on_grid_nearest_quanta numerator positive
  rw [← same] at near
  have scaled : exact * quantaPerOne < (2 ^ 53 - 1 / 2) * 2 ^ 2045 ↔ exact < overflowBound := by
    rw [← overflow_bound_mul]
    exact mul_lt_mul_iff_left₀ cast_quanta_per_one_pos
  have limit : quantaLimit = Nat.pow 2 2098 := rfl
  have bounded := (near.lt_iff limit 2045 rfl).trans scaled
  unfold ofQuotient
  split
  · rename_i small
    exact .finite (bounded.1 small) (Magnitude.is_nearest_of_nearest_on_grid near)
  · rename_i large
    apply Rounds.infinite
    exact le_of_not_gt fun small => large (bounded.2 small)

theorem overflow_bound_le_pow : overflowBound ≤ 2 ^ 1024 := by
  have split : (2 : ℚ) ^ 1024 = 2 ^ 53 * 2 ^ 971 := by rw [← pow_add]
  rw [overflowBound, split]
  apply mul_le_mul_of_nonneg_right
  · norm_num
  · positivity

theorem one_le_overflow_bound : 1 ≤ overflowBound := by
  have power : (1 : ℚ) ≤ 2 ^ 971 := one_le_pow₀ (by norm_num)
  exact le_trans power (le_mul_of_one_le_left (by positivity) (by norm_num))

theorem rounds_zero (negative : Bool) {exact : ℚ} (nonneg : 0 ≤ exact)
    (small : 2 * (exact * quantaPerOne) ≤ 1) :
    Rounds negative exact (.finite negative .zero) := by
  have onePositive : (1 : ℚ) ≤ quantaPerOne := by exact_mod_cast quanta_per_one_pos
  have scaledNonneg : 0 ≤ exact * quantaPerOne := mul_nonneg nonneg (by linarith)
  have gap : ∀ other, OnGrid other → other ≤ 0 ∨ 1 ≤ other := by
    intro other _
    omega
  have near : NearestOnGrid 0 (exact * quantaPerOne) := by
    apply nearest_on_grid_low (Nat.dvd_zero _) gap
    · exact_mod_cast scaledNonneg
    · push_cast
      linarith
    · intro _
      exact Nat.dvd_zero _
  have bounded : exact < overflowBound := by
    have one := one_le_overflow_bound
    nlinarith
  exact .finite bounded (Magnitude.is_nearest_of_nearest_on_grid near)

end Binary64

namespace Decimal

def value (decimal : Decimal) : ℚ := decimal.digits * 10 ^ decimal.exponent

theorem value_mul_pow (decimal : Decimal) :
    decimal.value * 10 ^ (-decimal.exponent).toNat =
      decimal.digits * 10 ^ decimal.exponent.toNat := by
  have nonzero : (10 : ℚ) ≠ 0 := by norm_num
  have exponents : decimal.exponent + ((-decimal.exponent).toNat : Int) =
      (decimal.exponent.toNat : Int) := by omega
  rw [value, mul_assoc, ← zpow_natCast, ← zpow_add₀ nonzero, exponents, zpow_natCast]

theorem value_nonneg (decimal : Decimal) : 0 ≤ decimal.value := by
  rw [value]
  positivity

/-- From `10 ^ 311` on every decimal is infinite. -/
theorem overflow_bound_le_value {decimal : Decimal} (nonzero : decimal.digits ≠ 0)
    (large : 310 < decimal.exponent) : overflowBound ≤ decimal.value := by
  have powers : Nat.pow 2 1024 ≤ Nat.pow 10 311 := by decide +kernel
  have castPowers : (2 : ℚ) ^ 1024 ≤ 10 ^ 311 := by
    have cast : ((Nat.pow 2 1024 : Nat) : ℚ) ≤ (Nat.pow 10 311 : Nat) := Nat.cast_le.2 powers
    rwa [Nat.pow_eq, Nat.pow_eq, Nat.cast_pow, Nat.cast_pow] at cast
  have power : (10 : ℚ) ^ 311 ≤ 10 ^ decimal.exponent := by
    rw [← zpow_natCast]
    apply zpow_le_zpow_right₀
    · norm_num
    · exact large
  have digits : (1 : ℚ) ≤ decimal.digits := by exact_mod_cast Nat.pos_of_ne_zero nonzero
  calc
    overflowBound ≤ 2 ^ 1024 := Binary64.overflow_bound_le_pow
    _ ≤ 10 ^ 311 := castPowers
    _ ≤ 10 ^ decimal.exponent := power
    _ ≤ decimal.digits * 10 ^ decimal.exponent := le_mul_of_one_le_left (by positivity) digits

theorem value_lt_pow (decimal : Decimal) :
    decimal.value < 10 ^ (decimal.exponent + decimal.digits.log2 + 1) := by
  have nonzero : (10 : ℚ) ≠ 0 := by norm_num
  have exponents : decimal.exponent + decimal.digits.log2 + 1 =
      ((decimal.digits.log2 + 1 : Nat) : Int) + decimal.exponent := by omega
  rw [value, exponents, zpow_add₀ nonzero, zpow_natCast]
  apply mul_lt_mul_of_pos_right
  · calc
      (decimal.digits : ℚ) < 2 ^ (decimal.digits.log2 + 1) := by exact_mod_cast Nat.lt_log2_self
      _ ≤ 10 ^ (decimal.digits.log2 + 1) := by
        apply pow_le_pow_left₀ <;> norm_num
  · positivity

theorem pow_neg_mul_pow (places : Nat) : (10 : ℚ) ^ (-(places : Int)) * 10 ^ places = 1 := by
  rw [zpow_neg, zpow_natCast]
  exact inv_mul_cancel₀ (pow_ne_zero places (by norm_num))

/-- Below `10 ^ -330` every decimal is less than half a quantum. -/
theorem value_mul_quanta_per_one_le {decimal : Decimal}
    (small : decimal.exponent + decimal.digits.log2 + 1 < -330) :
    2 * (decimal.value * quantaPerOne) ≤ 1 := by
  have unit : quantaPerOne = Nat.pow 2 1074 := rfl
  have powers : Nat.pow 2 1074 * 2 ≤ Nat.pow 10 330 := by decide +kernel
  have castPowers : (quantaPerOne : ℚ) * 2 ≤ 10 ^ 330 := by
    have cast : ((Nat.pow 2 1074 * 2 : Nat) : ℚ) ≤ (Nat.pow 10 330 : Nat) := Nat.cast_le.2 powers
    rw [Nat.cast_mul, ← unit] at cast
    exact cast.trans (Nat.cast_pow 10 330).le
  have unitNonneg : (0 : ℚ) ≤ quantaPerOne * 2 := mul_nonneg (Nat.cast_nonneg _) (by norm_num)
  have tiny : decimal.value ≤ 10 ^ (-((330 : Nat) : Int)) := by
    apply le_trans decimal.value_lt_pow.le
    apply zpow_le_zpow_right₀
    · norm_num
    · exact small.le
  calc
    2 * (decimal.value * quantaPerOne) = decimal.value * (quantaPerOne * 2) := by ring
    _ ≤ 10 ^ (-((330 : Nat) : Int)) * 10 ^ 330 :=
      mul_le_mul tiny castPowers unitNonneg (by positivity)
    _ = 1 := pow_neg_mul_pow 330

/-- The clamps of the exponent change nothing: a decimal is rounded to the nearest double whether
its powers of ten are computed or not. -/
theorem rounds_to_binary64 (decimal : Decimal) (negative : Bool) :
    Binary64.Rounds negative decimal.value (decimal.toBinary64 negative) := by
  unfold toBinary64
  split
  · rename_i isZero
    have zero : decimal.value = 0 := by
      rw [value, isZero, Nat.cast_zero, zero_mul]
    apply Binary64.rounds_zero negative decimal.value_nonneg
    rw [zero, zero_mul, mul_zero]
    exact zero_le_one
  split
  · rename_i nonzero large
    exact .infinite (overflow_bound_le_value nonzero large)
  split
  · rename_i small
    exact Binary64.rounds_zero negative decimal.value_nonneg (value_mul_quanta_per_one_le small)
  · apply Binary64.rounds_of_quotient negative _ (Nat.pow_pos (by omega))
    have castPositive : (0 : ℚ) < 10 ^ (-decimal.exponent).toNat := by positivity
    push_cast
    rw [Nat.pow_eq, Nat.cast_pow, eq_div_iff castPositive.ne', mul_right_comm, value_mul_pow]
    rfl

end Decimal

end TableQuery
