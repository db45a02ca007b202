import Mathlib.Algebra.Group.Int.Defs
import Mathlib.Algebra.Group.Nat.Defs
import TableQuery.Proofs.Number.ReadBack

/-!
What rounding does to the numbers that a shortest decimal can be. A whole number is rounded to a
whole number, rounding at most doubles, and the sign takes no part in it. So the exponent of a
decimal tells whether its double is whole, and its leading digit how large the double can be.
-/

namespace TableQuery

/-- The grid at a whole number is either finer or coarser than the whole numbers, as both are powers
of two. The number of places is a variable here, so that no power is ever computed. -/
theorem quanta_per_one_dvd_nearest_quanta (number places : Nat)
    (unit : quantaPerOne = Nat.pow 2 places) :
    quantaPerOne ∣ nearestQuanta (number * quantaPerOne) 1 := by
  rw [unit]
  have same : number * Nat.pow 2 places / 1 = number * Nat.pow 2 places := Nat.div_one _
  rw [nearestQuanta, same]
  by_cases coarse : places ≤ (number * Nat.pow 2 places).log2 - 52
  · have finer : Nat.pow 2 places ∣ spacing (number * Nat.pow 2 places) :=
      Nat.pow_dvd_pow 2 coarse
    exact Nat.dvd_trans finer (Nat.dvd_mul_left _ _)
  · have onGrid : spacing (number * Nat.pow 2 places) ∣ number * Nat.pow 2 places := by
      have coarser : spacing (number * Nat.pow 2 places) ∣ Nat.pow 2 places :=
        Nat.pow_dvd_pow 2 (by omega)
      exact Nat.dvd_trans coarser (Nat.dvd_mul_left _ _)
    have kept := nearest_quanta_mul onGrid Nat.one_pos
    rw [nearestQuanta, Nat.mul_one, same] at kept
    rw [kept]
    exact Nat.dvd_mul_left _ _

theorem spacing_le (quanta : Nat) : spacing quanta ≤ quanta + 1 := by
  by_cases fine : quanta.log2 ≤ 52
  · have least : quanta.log2 - 52 = 0 := by omega
    rw [spacing, least]
    exact Nat.le_add_left 1 quanta
  · have nonzero : quanta ≠ 0 := by
      rintro rfl
      exact fine (by decide)
    calc
      spacing quanta ≤ 2 ^ quanta.log2 := Nat.pow_le_pow_right (by omega) (by omega)
      _ ≤ quanta := Nat.log2_self_le nonzero
      _ ≤ quanta + 1 := Nat.le_succ _

theorem nearest_quanta_le (numerator denominator : Nat) :
    nearestQuanta numerator denominator ≤ 2 * (numerator / denominator) + 1 := by
  have bound := spacing_le (numerator / denominator)
  rw [nearestQuanta]
  generalize spacing (numerator / denominator) = step at bound ⊢
  calc
    roundHalfEven numerator (denominator * step) * step
        ≤ (numerator / (denominator * step) + 1) * step :=
      Nat.mul_le_mul_right step (round_half_even_le_succ _ _)
    _ = numerator / denominator / step * step + step := by
      rw [Nat.div_div_eq_div_mul, Nat.add_mul, Nat.one_mul]
    _ ≤ numerator / denominator + step := Nat.add_le_add_right (Nat.div_mul_le_self _ _) step
    _ ≤ 2 * (numerator / denominator) + 1 := by omega

/-- The double of a decimal is a rounded quotient, unless it is zero or infinite. The sign is put on
whatever comes out. -/
theorem Decimal.to_binary64_cases (decimal : Decimal) :
    (∀ negative, decimal.toBinary64 negative = .infinite negative) ∨
      ∃ magnitude : Magnitude,
        (∀ negative, decimal.toBinary64 negative = .finite negative magnitude) ∧
        (magnitude.quanta ≠ 0 → decimal.digits ≠ 0 ∧
          magnitude.quanta = nearestQuanta
            (decimal.digits * Nat.pow 10 decimal.exponent.toNat * quantaPerOne)
            (Nat.pow 10 (-decimal.exponent).toNat)) := by
  unfold toBinary64
  by_cases isZero : decimal.digits = 0
  · exact .inr ⟨.zero, fun _ => if_pos isZero, fun nonzero => absurd rfl nonzero⟩
  simp only [if_neg isZero]
  by_cases large : 310 < decimal.exponent
  · exact .inl fun _ => if_pos large
  simp only [if_neg large]
  by_cases small : decimal.exponent + decimal.digits.log2 + 1 < -330
  · exact .inr ⟨.zero, fun _ => if_pos small, fun nonzero => absurd rfl nonzero⟩
  simp only [if_neg small, Binary64.ofQuotient]
  by_cases bounded : nearestQuanta
      (decimal.digits * Nat.pow 10 decimal.exponent.toNat * quantaPerOne)
      (Nat.pow 10 (-decimal.exponent).toNat) < quantaLimit
  · exact .inr ⟨_, fun _ => dif_pos bounded, fun _ => ⟨isZero, rfl⟩⟩
  · exact .inl fun _ => dif_neg bounded

theorem Decimal.to_binary64_ne_nan (decimal : Decimal) (negative : Bool) :
    decimal.toBinary64 negative ≠ .nan := by
  intro isNan
  rcases decimal.to_binary64_cases with infinite | ⟨magnitude, finite, -⟩
  · cases (infinite negative).symm.trans isNan
  · cases (finite negative).symm.trans isNan

theorem Magnitude.to_binary64_of_reads_back {magnitude : Magnitude} {decimal : Decimal}
    (readsBack : magnitude.ReadsBack decimal) (negative : Bool) :
    decimal.toBinary64 negative = .finite negative magnitude := by
  rw [ReadsBack] at readsBack
  rcases decimal.to_binary64_cases with infinite | ⟨other, finite, -⟩
  · cases (infinite false).symm.trans readsBack
  · cases (finite false).symm.trans readsBack
    exact finite negative

theorem Magnitude.quanta_of_reads_back {magnitude : Magnitude} {decimal : Decimal}
    (readsBack : magnitude.ReadsBack decimal) (nonzero : magnitude.quanta ≠ 0) :
    decimal.digits ≠ 0 ∧
      magnitude.quanta = nearestQuanta
        (decimal.digits * Nat.pow 10 decimal.exponent.toNat * quantaPerOne)
        (Nat.pow 10 (-decimal.exponent).toNat) := by
  rw [ReadsBack] at readsBack
  rcases decimal.to_binary64_cases with infinite | ⟨other, finite, quotient⟩
  · cases (infinite false).symm.trans readsBack
  · cases (finite false).symm.trans readsBack
    exact quotient nonzero

theorem Magnitude.is_whole_of_reads_back {magnitude : Magnitude} {decimal : Decimal}
    (readsBack : magnitude.ReadsBack decimal) (noPlaces : 0 ≤ decimal.exponent) :
    magnitude.IsWhole := by
  by_cases nonzero : magnitude.quanta = 0
  · rw [IsWhole, nonzero]
    exact Nat.dvd_zero _
  · have quanta := (quanta_of_reads_back readsBack nonzero).2
    have noTenths : (-decimal.exponent).toNat = 0 := by omega
    rw [noTenths] at quanta
    rw [IsWhole, quanta]
    exact quanta_per_one_dvd_nearest_quanta _ 1074 rfl

theorem quanta_per_one_pos : 0 < quantaPerOne := Nat.two_pow_pos 1074

/-- The leading digit of a decimal bounds its double. -/
theorem Magnitude.quanta_lt_of_leading_exponent_lt {magnitude : Magnitude} {decimal : Decimal}
    (readsBack : magnitude.ReadsBack decimal) {limit : Nat}
    (small : decimal.leadingExponent < limit) :
    magnitude.quanta < 2 * 10 ^ limit * quantaPerOne := by
  have positive : 0 < 10 ^ limit * quantaPerOne :=
    Nat.mul_pos (Nat.pow_pos (by omega)) quanta_per_one_pos
  rw [Nat.mul_assoc]
  by_cases nonzero : magnitude.quanta = 0
  · omega
  · let length := (Nat.toDigits 10 decimal.digits).length
    have digits : decimal.digits < 10 ^ length :=
      (Nat.length_toDigits_le_iff (by omega) Nat.length_toDigits_pos).1 (Nat.le_refl _)
    have exponents : length + decimal.exponent.toNat ≤ limit + (-decimal.exponent).toNat := by
      have bound : decimal.exponent + (length : Int) - 1 < limit := small
      omega
    have scaled : decimal.digits * 10 ^ decimal.exponent.toNat <
        10 ^ limit * 10 ^ (-decimal.exponent).toNat := by
      calc
        decimal.digits * 10 ^ decimal.exponent.toNat
            < 10 ^ length * 10 ^ decimal.exponent.toNat :=
          Nat.mul_lt_mul_of_pos_right digits (Nat.pow_pos (by omega))
        _ = 10 ^ (length + decimal.exponent.toNat) := (Nat.pow_add ..).symm
        _ ≤ 10 ^ (limit + (-decimal.exponent).toNat) := Nat.pow_le_pow_right (by omega) exponents
        _ = 10 ^ limit * 10 ^ (-decimal.exponent).toNat := Nat.pow_add ..
    have quotient : decimal.digits * 10 ^ decimal.exponent.toNat * quantaPerOne /
        10 ^ (-decimal.exponent).toNat < 10 ^ limit * quantaPerOne := by
      apply Nat.div_lt_of_lt_mul
      calc
        decimal.digits * 10 ^ decimal.exponent.toNat * quantaPerOne
            < 10 ^ limit * 10 ^ (-decimal.exponent).toNat * quantaPerOne :=
          Nat.mul_lt_mul_of_pos_right scaled quanta_per_one_pos
        _ = 10 ^ (-decimal.exponent).toNat * (10 ^ limit * quantaPerOne) := by
          rw [Nat.mul_comm (10 ^ limit), Nat.mul_assoc]
    have rounded := (quanta_of_reads_back readsBack nonzero).2
    have bound := nearest_quanta_le
      (decimal.digits * Nat.pow 10 decimal.exponent.toNat * quantaPerOne)
      (Nat.pow 10 (-decimal.exponent).toNat)
    rw [← rounded] at bound
    simp only [Nat.pow_eq] at bound
    omega

theorem Magnitude.whole_part_mul {magnitude : Magnitude} (whole : magnitude.IsWhole) :
    magnitude.wholePart * quantaPerOne = magnitude.quanta := Nat.div_mul_cancel whole

theorem Magnitude.reads_back_whole_part {magnitude : Magnitude} (whole : magnitude.IsWhole) :
    magnitude.ReadsBack ⟨magnitude.wholePart, 0⟩ := by
  have quanta := whole_part_mul whole
  by_cases isZero : magnitude.wholePart = 0
  · rw [isZero, Nat.zero_mul] at quanta
    rw [ReadsBack, Decimal.toBinary64, if_pos isZero, eq_zero_of_quanta quanta.symm]
  · have nearest := Binary64.of_quotient_mul false magnitude Nat.one_pos
    rw [← quanta] at nearest
    simp only [ReadsBack, Decimal.toBinary64]
    rw [if_neg isZero, if_neg (by omega), if_neg (by omega)]
    simpa using nearest

end TableQuery
