import TableQuery.Proofs.Number.Nearest

/-!
Whole numbers as doubles. From `2 ^ 52` on the grid looks alike at every power of two, so a whole
number is rounded as it would be with any number of zeros behind it in base two. Rounding does not
pass over a double, and it returns to one that lies less than half a step away.
-/

namespace TableQuery

section Scaling

theorem log2_mul_two_pow {number : Nat} (nonzero : number ≠ 0) (places : Nat) :
    (number * 2 ^ places).log2 = number.log2 + places := by
  have positive := Nat.two_pow_pos places
  have sum : number.log2 + places + 1 = number.log2 + 1 + places := by omega
  rw [Nat.log2_eq_iff (Nat.mul_ne_zero nonzero positive.ne'), sum, Nat.pow_add, Nat.pow_add]
  constructor
  · exact Nat.mul_le_mul_right _ (Nat.log2_self_le nonzero)
  · exact Nat.mul_lt_mul_of_pos_right Nat.lt_log2_self positive

theorem ne_zero_of_le_log2 {number : Nat} (large : 52 ≤ number.log2) : number ≠ 0 := by
  rintro rfl
  exact absurd large (by decide)

/-- From `2 ^ 52` on the grid looks alike at every power of two, as many steps lying between one
power and the next. Below that the grid no longer becomes finer. -/
theorem spacing_mul_two_pow {number : Nat} (large : 52 ≤ number.log2) (places : Nat) :
    spacing (number * 2 ^ places) = spacing number * 2 ^ places := by
  have exponents : number.log2 + places - 52 = number.log2 - 52 + places := by omega
  rw [spacing, spacing, log2_mul_two_pow (ne_zero_of_le_log2 large), exponents]
  exact Nat.pow_add ..

theorem round_half_even_mul_mul (numerator denominator : Nat) {factor : Nat}
    (positive : 0 < factor) :
    roundHalfEven (numerator * factor) (denominator * factor) =
      roundHalfEven numerator denominator := by
  have twice (rest : Nat) : 2 * (rest * factor) = 2 * rest * factor := (Nat.mul_assoc ..).symm
  simp only [roundHalfEven, Nat.mul_div_mul_right _ _ positive, Nat.mul_mod_mul_right, twice,
    Nat.mul_lt_mul_right positive]

theorem nearest_quanta_one (quanta : Nat) :
    nearestQuanta quanta 1 = roundHalfEven quanta (spacing quanta) * spacing quanta := by
  rw [nearestQuanta, Nat.div_one, Nat.one_mul]

theorem nearest_quanta_mul_two_pow {number : Nat} (large : 52 ≤ number.log2) (places : Nat) :
    nearestQuanta (number * 2 ^ places) 1 = nearestQuanta number 1 * 2 ^ places := by
  rw [nearest_quanta_one, nearest_quanta_one, spacing_mul_two_pow large,
    round_half_even_mul_mul _ _ (Nat.two_pow_pos places), Nat.mul_assoc]

end Scaling

section Absorption

theorem nearest_on_grid_one (quanta : Nat) :
    NearestOnGrid (nearestQuanta quanta 1) (quanta : ℚ) := by
  simpa using nearest_on_grid_nearest_quanta quanta Nat.one_pos

theorem le_nearest_quanta {low quanta : Nat} (onGrid : OnGrid low) (above : low ≤ quanta) :
    low ≤ nearestQuanta quanta 1 := by
  have near := nearest_on_grid_one quanta
  by_contra small
  have castSmall : ((nearestQuanta quanta 1 : Nat) : ℚ) < low := by
    exact_mod_cast Nat.lt_of_not_le small
  have castAbove : (low : ℚ) ≤ quanta := by exact_mod_cast above
  have nearest := near.nearest low onGrid
  rw [abs_of_nonpos (by linarith), abs_of_nonpos (by linarith)] at nearest
  linarith

/-- Less than half a step above a grid point, rounding returns to it. -/
theorem nearest_quanta_add {low rest : Nat} (onGrid : OnGrid low) (small : 2 * rest < spacing low) :
    nearestQuanta (low + rest) 1 = low := by
  have near := nearest_on_grid_one (low + rest)
  have gap := le_floor_or_next_le low near.onGrid
  have next : (significand low + 1) * spacing low = low + spacing low := by
    rw [Nat.add_mul, significand_mul low onGrid, Nat.one_mul]
  rw [significand_mul low onGrid, next] at gap
  have castSmall : (2 * rest : ℚ) < spacing low := by exact_mod_cast small
  have under : nearestQuanta (low + rest) 1 < low + spacing low := by
    apply near.lt_of_nearer onGrid
    · exact Nat.lt_add_of_pos_right (spacing_pos low)
    · push_cast
      linarith
  have above := le_nearest_quanta onGrid (Nat.le_add_right low rest)
  omega

end Absorption

namespace Binary64

def ofWhole (number : Nat) : Binary64 := ofQuotient false (number * quantaPerOne) 1

theorem rounds_of_whole (number : Nat) : Rounds false number (ofWhole number) := by
  apply rounds_of_quotient false _ Nat.one_pos
  push_cast
  rw [div_one]

theorem of_whole_of_finite {number : Nat}
    (bounded : nearestQuanta (number * quantaPerOne) 1 < quantaLimit) :
    ofWhole number = finite false ⟨_, spacing_dvd_nearest_quanta _ _, bounded⟩ := by
  rw [ofWhole, ofQuotient, dif_pos bounded]

theorem of_whole_of_infinite {number : Nat}
    (unbounded : ¬nearestQuanta (number * quantaPerOne) 1 < quantaLimit) :
    ofWhole number = infinite false := by
  rw [ofWhole, ofQuotient, dif_neg unbounded]

theorem of_quotient_congr {numerator other : Nat}
    (same : nearestQuanta numerator 1 = nearestQuanta other 1) :
    ofQuotient false numerator 1 = ofQuotient false other 1 := by
  unfold ofQuotient
  simp only [same]

end Binary64

section WholeNumbers

variable {number : Nat}

/-- The power is not to be computed, so its exponent is not spelled out. -/
theorem exists_quanta_per_one_eq : ∃ places, quantaPerOne = Nat.pow 2 places := by
  unfold quantaPerOne
  exact ⟨_, rfl⟩

theorem on_grid_whole (small : number ≤ Nat.pow 2 53) : OnGrid (number * quantaPerOne) := by
  obtain ⟨places, unit⟩ := exists_quanta_per_one_eq
  rw [unit]
  exact spacing_dvd_mul_pow places small

theorem nearest_quanta_whole (small : number ≤ Nat.pow 2 53) :
    nearestQuanta (number * quantaPerOne) 1 = number * quantaPerOne := by
  have kept := nearest_quanta_mul (on_grid_whole small) Nat.one_pos
  rwa [Nat.mul_one] at kept

theorem quanta_whole_lt (small : number ≤ Nat.pow 2 53) :
    number * quantaPerOne < quantaLimit := by
  have bound : Nat.pow 2 53 * quantaPerOne < quantaLimit := by decide +kernel
  exact Nat.lt_of_le_of_lt (Nat.mul_le_mul_right _ small) bound

theorem two_mul_le_spacing {quanta : Nat} (large : Nat.pow 2 53 * quantaPerOne ≤ quanta) :
    2 * quantaPerOne ≤ spacing quanta := by
  obtain ⟨places, unit⟩ := exists_quanta_per_one_eq
  rw [unit] at large ⊢
  have power : Nat.pow 2 53 * Nat.pow 2 places = 2 ^ (53 + places) := (Nat.pow_add ..).symm
  have finer := spacing_dvd_spacing large
  have exponents : 53 + places - 52 = places + 1 := by omega
  rw [power, spacing, Nat.log2_two_pow, exponents] at finer
  have least := Nat.le_of_dvd (spacing_pos quanta) finer
  rwa [Nat.pow_eq, Nat.pow_succ, Nat.mul_comm] at least

theorem le_log2_of_le {quanta : Nat} (large : Nat.pow 2 53 ≤ quanta) : 52 ≤ quanta.log2 := by
  have nonzero : quanta ≠ 0 := by
    rintro rfl
    exact absurd large (by decide)
  rw [Nat.le_log2 nonzero]
  exact Nat.le_trans (by decide) large

theorem on_grid_mul_two_pow {quanta : Nat} (large : Nat.pow 2 53 ≤ quanta) (onGrid : OnGrid quanta)
    (places : Nat) : OnGrid (quanta * 2 ^ places) := by
  rw [OnGrid, spacing_mul_two_pow (le_log2_of_le large)]
  exact Nat.mul_dvd_mul_right onGrid _

theorem nearest_quanta_mul_quanta_per_one (large : Nat.pow 2 53 ≤ number) :
    nearestQuanta (number * quantaPerOne) 1 = nearestQuanta number 1 * quantaPerOne := by
  obtain ⟨places, unit⟩ := exists_quanta_per_one_eq
  rw [unit]
  exact nearest_quanta_mul_two_pow (le_log2_of_le large) places

def wholeLimit : Nat := Nat.pow 2 1024

theorem quanta_limit_eq : quantaLimit = wholeLimit * quantaPerOne := by
  decide +kernel

theorem on_grid_quanta_limit : OnGrid quantaLimit := by
  have power : ∃ places, quantaLimit = Nat.pow 2 places := by
    unfold quantaLimit
    exact ⟨_, rfl⟩
  obtain ⟨places, limit⟩ := power
  have leading : (Nat.pow 2 places).log2 = places := Nat.log2_two_pow
  rw [OnGrid, limit, spacing, leading]
  exact Nat.pow_dvd_pow 2 (by omega)

theorem of_whole_of_le (large : wholeLimit ≤ number) :
    Binary64.ofWhole number = .infinite false := by
  apply Binary64.of_whole_of_infinite
  have reached : quantaLimit ≤ number * quantaPerOne := by
    rw [quanta_limit_eq]
    exact Nat.mul_le_mul_right _ large
  exact Nat.not_lt_of_le (le_nearest_quanta on_grid_quanta_limit reached)

end WholeNumbers

end TableQuery
