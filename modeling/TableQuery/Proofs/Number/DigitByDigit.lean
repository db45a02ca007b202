import TableQuery.Number.Radix
import TableQuery.Proofs.Number.WholeNumber

/-!
Whole numbers whose digits are appended one at a time, in a base that is a power of two. Up to
`2 ^ 53` every number on the way is a double. The first digit that leads to `2 ^ 53` or beyond is
the last one that counts, as each later one is less than half the distance between two doubles. So
the result is the double nearest to the number with zeros in place of the later digits. It is
nearest to the number itself too, unless the digits that count end midway between two doubles and
the even one of these is the lower one.
-/

namespace TableQuery

section Steps

variable {number digit : Nat}

theorem append_digit_of_finite (radix : Nat)
    (bounded : nearestQuanta (number * quantaPerOne) 1 < quantaLimit) :
    (Binary64.ofWhole number).appendDigit radix digit =
      Binary64.ofQuotient false
        (nearestQuanta (number * quantaPerOne) 1 * radix + digit * quantaPerOne) 1 := by
  rw [Binary64.of_whole_of_finite bounded, Binary64.appendDigit]

/-- Up to `2 ^ 53` a whole number is a double, so a digit is appended to the number itself and
nothing is rounded. -/
theorem append_digit_of_small (radix : Nat) (small : number ≤ Nat.pow 2 53) :
    (Binary64.ofWhole number).appendDigit radix digit =
      Binary64.ofWhole (number * radix + digit) := by
  have kept := nearest_quanta_whole small
  have bounded : nearestQuanta (number * quantaPerOne) 1 < quantaLimit := by
    rw [kept]
    exact quanta_whole_lt small
  have product : number * quantaPerOne * radix + digit * quantaPerOne =
      (number * radix + digit) * quantaPerOne := by
    rw [Nat.add_mul, Nat.mul_right_comm]
  rw [append_digit_of_finite radix bounded, kept]
  exact congrArg (Binary64.ofQuotient false · 1) product

theorem append_digit_of_large {bits : Nat} (large : Nat.pow 2 53 ≤ number)
    (isDigit : digit < 2 ^ bits) :
    (Binary64.ofWhole number).appendDigit (2 ^ bits) digit =
      Binary64.ofWhole (number * 2 ^ bits) := by
  let near := nearestQuanta (number * quantaPerOne) 1
  have onGrid : OnGrid near := spacing_dvd_nearest_quanta _ _
  have reached : Nat.pow 2 53 * quantaPerOne ≤ near :=
    le_nearest_quanta (on_grid_whole (Nat.le_refl _)) (Nat.mul_le_mul_right _ large)
  have nearLarge : Nat.pow 2 53 ≤ near :=
    Nat.le_trans (Nat.le_mul_of_pos_right _ quanta_per_one_pos) reached
  have wholeLarge : Nat.pow 2 53 ≤ number * quantaPerOne :=
    Nat.le_trans large (Nat.le_mul_of_pos_right _ quanta_per_one_pos)
  have scaled : nearestQuanta (number * 2 ^ bits * quantaPerOne) 1 = near * 2 ^ bits := by
    rw [Nat.mul_right_comm]
    exact nearest_quanta_mul_two_pow (le_log2_of_le wholeLarge) bits
  by_cases bounded : near < quantaLimit
  · have small : 2 * (digit * quantaPerOne) < spacing (near * 2 ^ bits) := by
      calc
        2 * (digit * quantaPerOne) = 2 * quantaPerOne * digit := by
          rw [Nat.mul_comm digit, Nat.mul_assoc]
        _ < 2 * quantaPerOne * 2 ^ bits :=
          Nat.mul_lt_mul_of_pos_left isDigit (Nat.mul_pos Nat.two_pos quanta_per_one_pos)
        _ ≤ spacing near * 2 ^ bits := Nat.mul_le_mul_right _ (two_mul_le_spacing reached)
        _ = spacing (near * 2 ^ bits) := (spacing_mul_two_pow (le_log2_of_le nearLarge) bits).symm
    rw [append_digit_of_finite _ bounded]
    apply Binary64.of_quotient_congr
    rw [scaled]
    exact nearest_quanta_add (on_grid_mul_two_pow nearLarge onGrid bits) small
  · have unbounded : ¬nearestQuanta (number * 2 ^ bits * quantaPerOne) 1 < quantaLimit := by
      rw [scaled]
      intro less
      exact bounded (Nat.lt_of_le_of_lt (Nat.le_mul_of_pos_right _ (Nat.two_pow_pos bits)) less)
    rw [Binary64.of_whole_of_infinite bounded, Binary64.of_whole_of_infinite unbounded]
    rfl

end Steps

section Settling

/-- The number with zeros for all digits after the first one that leads to `2 ^ 53` or beyond. Those
digits are appended to a number whose steps are larger than they are, and they are lost. -/
def settled (radix number : Nat) : Nat :=
  if radix < 2 ∨ number < Nat.pow 2 53 * radix then number
  else settled radix (number / radix) * radix
termination_by number
decreasing_by
  rename_i large
  have positive : 0 < number := by
    by_contra none
    apply large
    right
    have base : 0 < radix := by omega
    exact Nat.lt_of_le_of_lt (Nat.le_of_not_lt none) (Nat.mul_pos (by decide) base)
  exact Nat.div_lt_self positive (by omega)

variable {radix number digit : Nat}

theorem settled_of_small (small : number < Nat.pow 2 53 * radix) :
    settled radix number = number := by
  rw [settled, if_pos (.inr small)]

theorem settled_of_large (two : 2 ≤ radix) (large : Nat.pow 2 53 * radix ≤ number) :
    settled radix number = settled radix (number / radix) * radix := by
  have many : ¬(radix < 2 ∨ number < Nat.pow 2 53 * radix) := by omega
  rw [settled, if_neg many]

theorem settled_append (two : 2 ≤ radix) (isDigit : digit < radix) :
    settled radix (number * radix + digit) =
      if number < Nat.pow 2 53 then number * radix + digit else settled radix number * radix := by
  have cut : (number * radix + digit) / radix = number := by
    rw [Nat.mul_comm, Nat.mul_add_div (by omega), Nat.div_eq_of_lt isDigit, Nat.add_zero]
  split
  · rename_i small
    apply settled_of_small
    calc
      number * radix + digit < (number + 1) * radix := by
        rw [Nat.add_mul, Nat.one_mul]
        exact Nat.add_lt_add_left isDigit _
      _ ≤ Nat.pow 2 53 * radix := Nat.mul_le_mul_right _ small
  · rename_i large
    have reached : Nat.pow 2 53 * radix ≤ number * radix :=
      Nat.mul_le_mul_right _ (Nat.le_of_not_lt large)
    rw [settled_of_large two (Nat.le_add_right_of_le reached), cut]

theorem le_settled (two : 2 ≤ radix) (large : Nat.pow 2 53 ≤ number) :
    Nat.pow 2 53 ≤ settled radix number := by
  induction number using Nat.strongRecOn with
  | ind number induction =>
      by_cases more : Nat.pow 2 53 * radix ≤ number
      · have positive : 0 < number := Nat.lt_of_lt_of_le (by decide) large
        have shorter := induction (number / radix) (Nat.div_lt_self positive two)
          ((Nat.le_div_iff_mul_le (by omega)).2 more)
        rw [settled_of_large two more]
        exact Nat.le_trans shorter (Nat.le_mul_of_pos_right _ (by omega))
      · rw [settled_of_small (Nat.lt_of_not_le more)]
        exact large

end Settling

section Numerals

def wholeOfDigits (radix : Nat) (digits : List Nat) : Nat :=
  digits.foldl (fun number digit => number * radix + digit) 0

theorem whole_of_digits_concat (radix : Nat) (digits : List Nat) (last : Nat) :
    wholeOfDigits radix (digits ++ [last]) = wholeOfDigits radix digits * radix + last := by
  rw [wholeOfDigits, List.foldl_concat, ← wholeOfDigits]

theorem of_whole_zero : Binary64.ofWhole 0 = .finite false .zero := by
  decide +kernel

/-- One digit after the other, the fold follows the number up to its settled part. The induction
takes the last digit off, as the fold adds it last. -/
theorem of_radix_digits_eq {bits : Nat} (positive : 0 < bits) {digits : List Nat}
    (isDigit : ∀ digit ∈ digits, digit < 2 ^ bits) :
    Binary64.ofRadixDigits (2 ^ bits) digits =
      Binary64.ofWhole (settled (2 ^ bits) (wholeOfDigits (2 ^ bits) digits)) := by
  have two : 2 ≤ 2 ^ bits := Nat.le_self_pow positive.ne' 2
  induction digits using List.reverseRecOn with
  | nil =>
      have zero : settled (2 ^ bits) (wholeOfDigits (2 ^ bits) []) = 0 :=
        settled_of_small (Nat.mul_pos (by decide) (by omega))
      rw [zero, of_whole_zero]
      rfl
  | append_singleton digits last induction =>
      have isLast : last < 2 ^ bits := isDigit last (by simp)
      have front := induction fun digit member => isDigit digit (by simp [member])
      have step : Binary64.ofRadixDigits (2 ^ bits) (digits ++ [last]) =
          (Binary64.ofRadixDigits (2 ^ bits) digits).appendDigit (2 ^ bits) last := by
        rw [Binary64.ofRadixDigits, List.foldl_concat, ← Binary64.ofRadixDigits]
      rw [step, front, whole_of_digits_concat, settled_append two isLast]
      generalize wholeOfDigits (2 ^ bits) digits = number
      split
      · rename_i small
        have whole : settled (2 ^ bits) number = number := by
          apply settled_of_small
          exact Nat.lt_of_lt_of_le small (Nat.le_mul_of_pos_right _ (by omega))
        rw [whole, append_digit_of_small _ (Nat.le_of_lt small)]
      · rename_i large
        exact append_digit_of_large (le_settled two (Nat.le_of_not_lt large)) isLast

end Numerals

section Ties

variable {low rest width : Nat}

theorem spacing_add (below : low % spacing low + rest < spacing low) :
    spacing (low + rest) = spacing low := by
  apply Nat.dvd_antisymm _ (spacing_dvd_spacing (Nat.le_add_right low rest))
  by_cases coarse : 52 ≤ low.log2
  · have nonzero : low + rest ≠ 0 := by
      have := ne_zero_of_le_log2 coarse
      omega
    have power : Nat.pow 2 53 * spacing low = 2 ^ (low.log2 + 1) := by
      have exponents : low.log2 + 1 = 53 + (low.log2 - 52) := by omega
      rw [exponents, Nat.pow_add, spacing]
      rfl
    have less : low + rest < 2 ^ (low.log2 + 1) := by
      have division := Nat.div_add_mod low (spacing low)
      calc
        low + rest < spacing low * (low / spacing low) + spacing low := by omega
        _ = (low / spacing low + 1) * spacing low := by ring
        _ ≤ Nat.pow 2 53 * spacing low := Nat.mul_le_mul_right _ (div_spacing_lt low)
        _ = 2 ^ (low.log2 + 1) := power
    have logs : (low + rest).log2 ≤ low.log2 := Nat.le_of_lt_succ ((Nat.log2_lt nonzero).2 less)
    exact Nat.pow_dvd_pow 2 (by omega)
  · have finest : spacing low = 1 := by
      have unshifted : low.log2 - 52 = 0 := by omega
      rw [spacing, unshifted]
    have noRest : rest = 0 := by omega
    rw [noRest, Nat.add_zero]

theorem add_lt_of_dvd {multiple larger : Nat} (divides : width ∣ multiple)
    (dividesLarger : width ∣ larger) (less : multiple < larger) (small : rest < width) :
    multiple + rest < larger := by
  obtain ⟨count, rfl⟩ := divides
  obtain ⟨more, rfl⟩ := dividesLarger
  have next : width * (count + 1) ≤ width * more :=
    Nat.mul_le_mul_left width (Nat.lt_of_mul_lt_mul_left less)
  rw [Nat.mul_add, Nat.mul_one] at next
  omega

/-- What is added below all places that count decides about a tie, and about nothing else. -/
theorem round_half_even_add {half : Nat} (coarse : width ∣ half) (multiple : width ∣ low)
    (small : rest < width) (positive : 0 < half) :
    roundHalfEven (low + rest) (2 * half) = roundHalfEven low (2 * half) ↔
      ¬(rest ≠ 0 ∧ low % (2 * half) = half ∧ low / (2 * half) % 2 = 0) := by
  have coarseStep : width ∣ 2 * half := Nat.dvd_mul_left_of_dvd coarse 2
  have multipleRest : width ∣ low % (2 * half) := (Nat.dvd_mod_iff coarseStep).2 multiple
  have room : low % (2 * half) + rest < 2 * half :=
    add_lt_of_dvd multipleRest coarseStep (Nat.mod_lt _ (by omega)) small
  have division : low + rest = low % (2 * half) + rest + 2 * half * (low / (2 * half)) := by
    have := Nat.div_add_mod low (2 * half)
    omega
  have quotient : (low + rest) / (2 * half) = low / (2 * half) := by
    rw [division, Nat.add_mul_div_left _ _ (by omega), Nat.div_eq_of_lt room, Nat.zero_add]
  have remainder : (low + rest) % (2 * half) = low % (2 * half) + rest := by
    rw [division, Nat.add_mul_mod_self_left, Nat.mod_eq_of_lt room]
  have stays : low % (2 * half) < half → low % (2 * half) + rest < half := fun less =>
    add_lt_of_dvd multipleRest coarse less small
  simp only [roundHalfEven, quotient, remainder]
  generalize low % (2 * half) = surplus at stays
  generalize low / (2 * half) = units
  rcases Nat.lt_trichotomy surplus half with under | tie | beyond
  · have less := stays under
    rw [if_pos (by omega), if_pos (by omega)]
    omega
  · subst tie
    by_cases isZero : rest = 0
    · simp [isZero]
    · rw [if_neg (by omega), if_pos (by omega), if_neg (by omega), if_neg (by omega)]
      split <;> omega
  · rw [if_neg (by omega), if_pos (by omega), if_neg (by omega), if_pos (by omega)]
    omega

/-- Midway between two neighbours on its grid, of which the lower one is even. Only such a number is
rounded to another double when a little is added to it. -/
def TiesDown (number : Nat) : Prop := 2 * (number % (2 * spacing number)) = spacing number

theorem ties_down_iff (number : Nat) :
    TiesDown number ↔
      2 * (number % spacing number) = spacing number ∧ number / spacing number % 2 = 0 := by
  have split : number % (2 * spacing number) =
      number % spacing number + spacing number * (number / spacing number % 2) := by
    rw [Nat.mul_comm 2, Nat.mod_mul]
  have positive := spacing_pos number
  rw [TiesDown, split]
  rcases Nat.mod_two_eq_zero_or_one (number / spacing number) with even | odd
  · rw [even]
    omega
  · rw [odd]
    omega

/-- A tie that goes down is lost to what is added, and nothing else is. -/
theorem nearest_quanta_add_eq_iff (coarse : 2 * width ∣ spacing low) (multiple : width ∣ low)
    (small : rest < width) :
    nearestQuanta (low + rest) 1 = nearestQuanta low 1 ↔ ¬(rest ≠ 0 ∧ TiesDown low) := by
  obtain ⟨count, twice⟩ := coarse
  have step : spacing low = 2 * (width * count) := by rw [twice, Nat.mul_assoc]
  have positive := spacing_pos low
  have coarseStep : width ∣ spacing low := ⟨2 * count, by rw [twice]; ring⟩
  have same : spacing (low + rest) = spacing low := by
    apply spacing_add
    exact add_lt_of_dvd ((Nat.dvd_mod_iff coarseStep).2 multiple) coarseStep
      (Nat.mod_lt _ positive) small
  have rounded := round_half_even_add (Nat.dvd_mul_right width count) multiple small (by omega)
  rw [← step] at rounded
  rw [nearest_quanta_one, nearest_quanta_one, same, Nat.mul_left_inj positive.ne', rounded,
    ties_down_iff]
  have middle : low % spacing low = width * count ↔ 2 * (low % spacing low) = spacing low := by
    omega
  rw [middle]

end Ties

section Agreement

variable {low rest width number : Nat}

theorem exists_settled_add {bits : Nat} (positive : 0 < bits) (large : Nat.pow 2 53 ≤ number) :
    ∃ width rest, number = settled (2 ^ bits) number + rest ∧ rest < width ∧
      width ∣ settled (2 ^ bits) number ∧ 2 * width ∣ spacing (settled (2 ^ bits) number) := by
  have two : 2 ≤ 2 ^ bits := Nat.le_self_pow positive.ne' 2
  induction number using Nat.strongRecOn with
  | ind number induction =>
      by_cases more : Nat.pow 2 53 * 2 ^ bits ≤ number
      · have positive : 0 < number := Nat.lt_of_lt_of_le (by decide) large
        have reached : Nat.pow 2 53 ≤ number / 2 ^ bits :=
          (Nat.le_div_iff_mul_le (by omega)).2 more
        obtain ⟨width, rest, split, small, multiple, coarse⟩ :=
          induction _ (Nat.div_lt_self positive two) reached
        have settledLarge := le_log2_of_le (le_settled two reached)
        have last := Nat.mod_lt number (Nat.two_pow_pos bits)
        have division := Nat.div_add_mod number (2 ^ bits)
        rw [settled_of_large two more, spacing_mul_two_pow settledLarge]
        generalize settled (2 ^ bits) (number / 2 ^ bits) = front at split multiple coarse ⊢
        refine ⟨width * 2 ^ bits, rest * 2 ^ bits + number % 2 ^ bits, ?_, ?_, ?_, ?_⟩
        · rw [split] at division
          calc
            number = 2 ^ bits * (front + rest) + number % 2 ^ bits := division.symm
            _ = front * 2 ^ bits + (rest * 2 ^ bits + number % 2 ^ bits) := by ring
        · calc
            rest * 2 ^ bits + number % 2 ^ bits < (rest + 1) * 2 ^ bits := by
              rw [Nat.add_mul, Nat.one_mul]
              exact Nat.add_lt_add_left last _
            _ ≤ width * 2 ^ bits := Nat.mul_le_mul_right _ small
        · exact Nat.mul_dvd_mul_right multiple _
        · rw [← Nat.mul_assoc]
          exact Nat.mul_dvd_mul_right coarse _
      · rw [settled_of_small (Nat.lt_of_not_le more)]
        have even : 2 ∣ spacing number := by
          have finer := spacing_dvd_spacing large
          have least : spacing (Nat.pow 2 53) = 2 := by decide +kernel
          rwa [least] at finer
        exact ⟨1, 0, rfl, Nat.one_pos, Nat.one_dvd _, even⟩

theorem nearest_quanta_le_of_ties_down (ties : TiesDown number) :
    nearestQuanta number 1 ≤ number := by
  obtain ⟨middle, even⟩ := (ties_down_iff number).1 ties
  have down : roundHalfEven number (spacing number) = number / spacing number := by
    simp only [roundHalfEven]
    rw [if_neg (by omega), if_neg (by omega), if_pos even]
  rw [nearest_quanta_one, down]
  exact Nat.div_mul_le_self _ _

theorem of_whole_eq_iff (large : Nat.pow 2 53 ≤ low) (coarse : 2 * width ∣ spacing low)
    (multiple : width ∣ low) (small : rest < width) :
    Binary64.ofWhole low = Binary64.ofWhole (low + rest) ↔
      ¬(rest ≠ 0 ∧ low < wholeLimit ∧ TiesDown low) := by
  have lowScaled := nearest_quanta_mul_quanta_per_one large
  have scaled := nearest_quanta_mul_quanta_per_one (Nat.le_add_right_of_le (k := rest) large)
  have nearest := nearest_quanta_add_eq_iff coarse multiple small
  constructor
  · rintro same ⟨nonzero, bounded, ties⟩
    have lowBounded : nearestQuanta (low * quantaPerOne) 1 < quantaLimit := by
      rw [lowScaled, quanta_limit_eq]
      apply Nat.mul_lt_mul_of_pos_right _ quanta_per_one_pos
      exact Nat.lt_of_le_of_lt (nearest_quanta_le_of_ties_down ties) bounded
    rw [Binary64.of_whole_of_finite lowBounded] at same
    by_cases alsoBounded : nearestQuanta ((low + rest) * quantaPerOne) 1 < quantaLimit
    · rw [Binary64.of_whole_of_finite alsoBounded] at same
      have quanta : nearestQuanta (low * quantaPerOne) 1 =
          nearestQuanta ((low + rest) * quantaPerOne) 1 :=
        congrArg Magnitude.quanta (Binary64.finite.inj same).2
      rw [lowScaled, scaled, Nat.mul_left_inj quanta_per_one_pos.ne'] at quanta
      exact nearest.1 quanta.symm ⟨nonzero, ties⟩
    · rw [Binary64.of_whole_of_infinite alsoBounded] at same
      cases same
  · intro other
    by_cases bounded : low < wholeLimit
    · have same := nearest.2 fun ⟨nonzero, ties⟩ => other ⟨nonzero, bounded, ties⟩
      apply Binary64.of_quotient_congr
      rw [lowScaled, scaled, same]
    · have infinite := Nat.le_of_not_lt bounded
      rw [of_whole_of_le infinite, of_whole_of_le (Nat.le_add_right_of_le infinite)]

/-- Settling changes the nearest double exactly where it leaves a tie that goes down. -/
theorem of_whole_settled_eq_iff {bits : Nat} (positive : 0 < bits) (number : Nat) :
    Binary64.ofWhole (settled (2 ^ bits) number) = Binary64.ofWhole number ↔
      ¬(settled (2 ^ bits) number ≠ number ∧ settled (2 ^ bits) number < wholeLimit ∧
        TiesDown (settled (2 ^ bits) number)) := by
  by_cases large : Nat.pow 2 53 ≤ number
  · obtain ⟨width, rest, split, small, multiple, coarse⟩ := exists_settled_add positive large
    have settledLarge := le_settled (Nat.le_self_pow positive.ne' 2) large
    have agrees := of_whole_eq_iff settledLarge coarse multiple small
    have changed : settled (2 ^ bits) number ≠ number ↔ rest ≠ 0 := by omega
    rw [← split] at agrees
    rw [agrees, changed]
  · have same : settled (2 ^ bits) number = number := by
      apply settled_of_small
      exact Nat.lt_of_lt_of_le (Nat.lt_of_not_le large)
        (Nat.le_mul_of_pos_right _ (Nat.two_pow_pos bits))
    simp [same]

end Agreement

end TableQuery
