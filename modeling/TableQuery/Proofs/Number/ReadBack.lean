import TableQuery.Number.Notation
import TableQuery.Proofs.Number.Digits
import TableQuery.Proofs.Text.CharacterClass

/-!
Numbers that are written out read back as the same double. The search for the shortest decimal only
ever returns one that reads back, since the last place it looks holds the magnitude exactly; and the
positional layout of a decimal is a numeral with the same value.
-/

namespace TableQuery

theorem spacing_pos (quanta : Nat) : 0 < spacing quanta := Nat.two_pow_pos _

theorem round_half_even_mul {units denominator : Nat} (positive : 0 < denominator) :
    roundHalfEven (units * denominator) denominator = units := by
  have quotient : units * denominator / denominator = units := Nat.mul_div_cancel _ positive
  have remainder : units * denominator % denominator = 0 := Nat.mul_mod_left _ _
  simp only [roundHalfEven, quotient, remainder]
  rw [if_pos (by omega)]

theorem nearest_quanta_mul {quanta denominator : Nat} (onGrid : spacing quanta ∣ quanta)
    (positive : 0 < denominator) : nearestQuanta (quanta * denominator) denominator = quanta := by
  obtain ⟨units, split⟩ := onGrid
  have quotient : quanta * denominator / denominator = quanta := Nat.mul_div_cancel _ positive
  have scaled : quanta * denominator = units * (denominator * spacing quanta) := by
    calc
      quanta * denominator = spacing quanta * units * denominator := by rw [← split]
      _ = units * (denominator * spacing quanta) := by
        rw [Nat.mul_comm (spacing quanta), Nat.mul_assoc, Nat.mul_comm (spacing quanta)]
  have nonzero : 0 < denominator * spacing quanta := Nat.mul_pos positive (spacing_pos quanta)
  rw [nearestQuanta, quotient, scaled, round_half_even_mul nonzero, Nat.mul_comm, ← split]

theorem Binary64.of_quotient_mul (negative : Bool) (magnitude : Magnitude) {denominator : Nat}
    (positive : 0 < denominator) :
    ofQuotient negative (magnitude.quanta * denominator) denominator =
      finite negative magnitude := by
  have nearest := nearest_quanta_mul magnitude.on_grid positive
  have bounded : nearestQuanta (magnitude.quanta * denominator) denominator < quantaLimit := by
    rw [nearest]
    exact magnitude.bounded
  rw [ofQuotient, dif_pos bounded]
  congr

namespace Magnitude

theorem eq_zero_of_quanta {magnitude : Magnitude} (isZero : magnitude.quanta = 0) :
    magnitude = zero := by
  cases magnitude
  cases isZero
  rfl

theorem mul_five_pow (quanta places : Nat) :
    quanta * Nat.pow 5 places * Nat.pow 10 0 * Nat.pow 2 places = quanta * Nat.pow 10 places := by
  have split : 10 ^ places = 5 ^ places * 2 ^ places := Nat.mul_pow 5 2 places
  simp only [Nat.pow_eq, split, Nat.pow_zero, Nat.mul_one, Nat.mul_assoc]

theorem two_pow_le_five_pow (places : Nat) : Nat.pow 2 (2 * places) ≤ Nat.pow 5 places := by
  rw [Nat.pow_eq, Nat.pow_mul]
  exact Nat.pow_le_pow_left (by omega) places

/-- At the finest power of ten every magnitude is a whole multiple. The number of places is a
variable here, so that no power is ever computed. -/
theorem reads_back_finest (magnitude : Magnitude) (places : Nat)
    (unit : quantaPerOne = Nat.pow 2 places) (many : 330 ≤ places) :
    magnitude.ReadsBack ⟨magnitude.quanta * Nat.pow 5 places, -(places : Int)⟩ := by
  by_cases isZero : magnitude.quanta = 0
  · have noDigits : magnitude.quanta * Nat.pow 5 places = 0 := Nat.mul_eq_zero.2 (.inl isZero)
    rw [ReadsBack, Decimal.toBinary64, if_pos noDigits, eq_zero_of_quanta isZero]
  · have positive : 0 < magnitude.quanta := Nat.pos_of_ne_zero isZero
    have nonzero : magnitude.quanta * Nat.pow 5 places ≠ 0 :=
      Nat.mul_ne_zero isZero (Nat.ne_of_gt (Nat.pow_pos (by omega)))
    have long : 2 * places ≤ (magnitude.quanta * Nat.pow 5 places).log2 :=
      (Nat.le_log2 nonzero).2 <|
        Nat.le_trans (two_pow_le_five_pow places) (Nat.le_mul_of_pos_left _ positive)
    have nearest := Binary64.of_quotient_mul false magnitude
      (Nat.pow_pos (by omega) : 0 < 10 ^ places)
    have wholePower : (-(places : Int)).toNat = 0 := by omega
    have tenths : (-(-(places : Int))).toNat = places := by omega
    simp only [ReadsBack, Decimal.toBinary64]
    rw [if_neg nonzero, if_neg (by omega), if_neg (by omega), wholePower, tenths, unit,
      mul_five_pow]
    exact nearest

theorem reads_back_of_multiple_at {tie : TieRule} {magnitude : Magnitude} {exponent : Int}
    {decimal : Decimal} (found : multipleAt tie magnitude exponent = some decimal) :
    magnitude.ReadsBack decimal := by
  unfold multipleAt at found
  dsimp only at found
  split at found
  · rename_i chosen
    cases found
    exact chosen.1
  · split at found
    · rename_i chosen
      cases found
      exact chosen
    · cases found

theorem reads_back_shortest_from (tie : TieRule) (magnitude : Magnitude) (depth : Nat) :
    magnitude.ReadsBack (shortestFrom tie magnitude depth) := by
  induction depth with
  | zero => exact reads_back_finest magnitude 1074 rfl (by omega)
  | succ depth induction =>
      unfold shortestFrom
      split
      · rename_i decimal found
        exact reads_back_of_multiple_at found
      · exact induction

theorem reads_back_shortest (tie : TieRule) (magnitude : Magnitude) :
    magnitude.ReadsBack (magnitude.shortest tie) := by
  unfold shortest
  split
  · rename_i isZero
    rw [eq_zero_of_quanta isZero]
    rfl
  · exact reads_back_shortest_from tie magnitude _

end Magnitude

/-- `Digit+ ("." Digit+)?`. -/
inductive IsNumeral : List Char → Prop
  | whole {digits : List Char} (isWhole : allDigits digits) : IsNumeral digits
  | fraction {digits places : List Char} (isWhole : allDigits digits)
      (isFraction : allDigits places) : IsNumeral (digits ++ '.' :: places)

namespace Decimal

theorem read?_whole {digits : List Char} (isWhole : allDigits digits) :
    read? digits = some ⟨Nat.ofDigitChars 10 digits 0, 0⟩ := by
  obtain ⟨nonempty, all⟩ := all_digits_iff.1 isWhole
  have cut := span_append all [] (by simp)
  rw [List.append_nil] at cut
  simp [read?, cut.1, cut.2, splitFraction, readExponent?, nonempty]

theorem read?_fraction {digits places : List Char} (isWhole : allDigits digits)
    (isFraction : allDigits places) :
    read? (digits ++ '.' :: places) =
      some ⟨Nat.ofDigitChars 10 (digits ++ places) 0, -(places.length : Int)⟩ := by
  obtain ⟨nonempty, all⟩ := all_digits_iff.1 isWhole
  have cut := span_append all ('.' :: places) (by simp)
  have cutPlaces := span_append (all_digits_iff.1 isFraction).2 [] (by simp)
  rw [List.append_nil] at cutPlaces
  simp [read?, cut.1, cut.2, splitFraction, cutPlaces.1, cutPlaces.2, readExponent?, nonempty]

theorem exists_read? {text : List Char} (numeral : IsNumeral text) :
    ∃ decimal, read? text = some decimal := by
  cases numeral with
  | whole isWhole => exact ⟨_, read?_whole isWhole⟩
  | fraction isWhole isFraction => exact ⟨_, read?_fraction isWhole isFraction⟩

theorem positional_of_nonneg {decimal : Decimal} (whole : 0 ≤ decimal.exponent) :
    decimal.positional =
      Nat.toDigits 10 decimal.digits ++ List.replicate decimal.exponent.toNat '0' := by
  have noPlaces : (-decimal.exponent).toNat = 0 := by omega
  rw [positional, if_pos noPlaces]

/-- The digits with as many zeros in front as leave one digit before the point. -/
def paddedDigits (decimal : Decimal) : List Char :=
  let digits := Nat.toDigits 10 decimal.digits
  List.replicate ((-decimal.exponent).toNat + 1 - digits.length) '0' ++ digits

theorem lt_length_padded_digits (decimal : Decimal) :
    (-decimal.exponent).toNat < decimal.paddedDigits.length := by
  simp only [paddedDigits, List.length_append, List.length_replicate]
  omega

theorem isDigit_of_mem_padded_digits (decimal : Decimal) :
    ∀ character ∈ decimal.paddedDigits, character.isDigit = true := by
  intro character member
  rcases List.mem_append.1 member with zero | old
  · rw [List.eq_of_mem_replicate zero]
    decide
  · exact (all_digits_iff.1 (all_digits_toDigits decimal.digits)).2 character old

theorem ofDigitChars_padded_digits (decimal : Decimal) :
    Nat.ofDigitChars 10 decimal.paddedDigits 0 = decimal.digits := by
  rw [paddedDigits, Nat.ofDigitChars_append, Nat.ofDigitChars_replicate_zero, Nat.mul_zero,
    Nat.ofDigitChars_ten_toDigits]

theorem eq_zero_of_head?_take_padded_digits {decimal : Decimal} {count : Nat}
    (split : decimal.paddedDigits.length = count + (-decimal.exponent).toNat)
    (broken : decimal.exponent < 0)
    (zero : (decimal.paddedDigits.take count).head? = some '0') :
    decimal.paddedDigits.take count = ['0'] := by
  have positive : 0 < count := by
    have long := decimal.lt_length_padded_digits
    omega
  rw [List.head?_take, if_neg (by omega)] at zero
  by_cases short : (Nat.toDigits 10 decimal.digits).length ≤ (-decimal.exponent).toNat
  · have one : count = 1 := by
      simp only [paddedDigits, List.length_append, List.length_replicate] at split
      omega
    rcases List.head?_eq_some_iff.1 zero with ⟨rest, same⟩
    rw [one, same]
    rfl
  · have noPadding : decimal.paddedDigits = Nat.toDigits 10 decimal.digits := by
      have filled :
          (-decimal.exponent).toNat + 1 - (Nat.toDigits 10 decimal.digits).length = 0 := by
        omega
      simp only [paddedDigits, filled, List.replicate_zero, List.nil_append]
    have nonzero : decimal.digits ≠ 0 := by
      intro isZero
      rw [isZero, Nat.toDigits_zero, List.length_singleton] at short
      omega
    rw [noPadding] at zero
    exact absurd zero (head?_toDigits_ne_zero (Nat.pos_of_ne_zero nonzero))

theorem exists_positional_split {decimal : Decimal} (broken : decimal.exponent < 0) :
    ∃ whole part, decimal.positional = whole ++ '.' :: part ∧ allDigits whole ∧ allDigits part ∧
      Nat.ofDigitChars 10 (whole ++ part) 0 = decimal.digits ∧
      -(part.length : Int) = decimal.exponent ∧ (whole.head? = some '0' → whole = ['0']) := by
  let cut := decimal.paddedDigits.length - (-decimal.exponent).toNat
  have long := decimal.lt_length_padded_digits
  have all := decimal.isDigit_of_mem_padded_digits
  have wholeLength : (decimal.paddedDigits.take cut).length = cut :=
    List.length_take_of_le (by omega)
  have partLength : (decimal.paddedDigits.drop cut).length = (-decimal.exponent).toNat := by
    rw [List.length_drop]
    omega
  have lengths : decimal.paddedDigits.length = cut + (-decimal.exponent).toNat := by omega
  refine ⟨decimal.paddedDigits.take cut, decimal.paddedDigits.drop cut, ?_, ?_, ?_, ?_, ?_, ?_⟩
  · rw [positional, if_neg (by omega)]
    rfl
  · refine all_digits_iff.2 ⟨List.ne_nil_of_length_pos (by omega), ?_⟩
    exact fun character member => all character (List.mem_of_mem_take member)
  · refine all_digits_iff.2 ⟨List.ne_nil_of_length_pos (by omega), ?_⟩
    exact fun character member => all character (List.mem_of_mem_drop member)
  · rw [List.take_append_drop, ofDigitChars_padded_digits]
  · omega
  · exact eq_zero_of_head?_take_padded_digits lengths broken

theorem is_numeral_positional (decimal : Decimal) : IsNumeral decimal.positional := by
  by_cases broken : decimal.exponent < 0
  · obtain ⟨whole, part, split, isWhole, isFraction, -⟩ := exists_positional_split broken
    rw [split]
    exact .fraction isWhole isFraction
  · rw [positional_of_nonneg (by omega)]
    exact .whole (all_digits_append_zeros (all_digits_toDigits _) _)

/-- The same number without a positive power of ten. -/
def spelledOut (decimal : Decimal) : Decimal :=
  ⟨decimal.digits * Nat.pow 10 decimal.exponent.toNat, min decimal.exponent 0⟩

theorem spelled_out_of_broken {decimal : Decimal} (broken : decimal.exponent < 0) :
    decimal.spelledOut = decimal := by
  have noPower : decimal.exponent.toNat = 0 := by omega
  have least : min decimal.exponent 0 = decimal.exponent := by omega
  have noScale : Nat.pow 10 0 = 1 := rfl
  rw [spelledOut, noPower, least, noScale, Nat.mul_one]

theorem spelled_out_of_nonneg {decimal : Decimal} (whole : 0 ≤ decimal.exponent) :
    decimal.spelledOut = ⟨decimal.digits * Nat.pow 10 decimal.exponent.toNat, 0⟩ := by
  have least : min decimal.exponent 0 = 0 := by omega
  rw [spelledOut, least]

/-- A positive power of ten is spelled out in zeros, so it reads back as part of the digits and not
as a power. The number is the same, but not the decimal. -/
theorem read?_positional (decimal : Decimal) :
    read? decimal.positional = some decimal.spelledOut := by
  by_cases broken : decimal.exponent < 0
  · obtain ⟨whole, part, split, isWhole, isFraction, value, places, -⟩ :=
      exists_positional_split broken
    rw [split, read?_fraction isWhole isFraction, value, places, spelled_out_of_broken broken]
  · have whole : 0 ≤ decimal.exponent := by omega
    rw [positional_of_nonneg whole, spelled_out_of_nonneg whole,
      read?_whole (all_digits_append_zeros (all_digits_toDigits _) _), Nat.ofDigitChars_append,
      Nat.ofDigitChars_ten_toDigits, Nat.ofDigitChars_replicate_zero, Nat.mul_comm]
    rfl

/-- Spelling out the zeros keeps the double, unless the number is too large to be finite. A finite
one has no power of ten that would have been clamped. -/
theorem to_binary64_spelled_out {decimal : Decimal} {magnitude : Magnitude}
    (finite : decimal.toBinary64 false = .finite false magnitude) :
    decimal.spelledOut.toBinary64 false = .finite false magnitude := by
  by_cases broken : decimal.exponent < 0
  · rw [spelled_out_of_broken broken]
    exact finite
  · rw [spelled_out_of_nonneg (by omega), ← finite]
    by_cases isZero : decimal.digits = 0
    · rw [toBinary64, toBinary64, if_pos isZero, isZero, Nat.zero_mul, if_pos rfl]
    · have powerPos : 0 < Nat.pow 10 decimal.exponent.toNat := Nat.pow_pos (by omega)
      have nonzero : decimal.digits * Nat.pow 10 decimal.exponent.toNat ≠ 0 :=
        Nat.mul_ne_zero isZero (by omega)
      have small : ¬310 < decimal.exponent := by
        intro large
        rw [toBinary64, if_neg isZero, if_pos large] at finite
        cases finite
      have noTenths : (-decimal.exponent).toNat = 0 := by omega
      simp only [toBinary64]
      rw [if_neg nonzero, if_neg isZero, if_neg small, if_neg (by omega), if_neg (by omega),
        if_neg (by omega), noTenths]
      simp only [Nat.pow_eq, Int.toNat_zero, Int.neg_zero, Nat.pow_zero, Nat.mul_one]

end Decimal

theorem exists_digit_of_is_numeral {text : List Char} (numeral : IsNumeral text) :
    ∃ first rest, text = first :: rest ∧ first.isDigit = true := by
  cases numeral with
  | whole isWhole =>
      obtain ⟨first, rest, rfl, digit, -⟩ := exists_cons_of_all_digits isWhole
      exact ⟨first, rest, rfl, digit⟩
  | @fraction digits places isWhole isFraction =>
      obtain ⟨first, rest, rfl, digit, -⟩ := exists_cons_of_all_digits isWhole
      exact ⟨first, rest ++ '.' :: places, rfl, digit⟩

theorem toLower_of_isDigit {character : Char} (digit : character.isDigit = true) :
    character.toLower = character := by
  simp only [Char.isDigit, Bool.and_eq_true, decide_eq_true_eq] at digit
  unfold Char.toLower
  rw [dif_neg]
  intro upper
  exact absurd (UInt32.le_trans upper.1 digit.2) (by decide)

theorem split_sign_of_plain {text : List Char} (noPlus : text.head? ≠ some '+')
    (noMinus : text.head? ≠ some '-') : splitSign text = (false, text) := by
  unfold splitSign
  split
  · exact absurd rfl noPlus
  · exact absurd rfl noMinus
  · rfl

theorem split_sign_of_isDigit {first : Char} (digit : first.isDigit = true) (rest : List Char) :
    splitSign (first :: rest) = (false, first :: rest) := by
  have other (sign : Char) (noDigit : sign.isDigit = false) :
      (first :: rest).head? ≠ some sign :=
    fun same => ne_of_test digit noDigit (Option.some.inj same)
  exact split_sign_of_plain (other '+' rfl) (other '-' rfl)

theorem read_unsigned_double?_of_isDigit {first : Char} (digit : first.isDigit = true)
    (rest : List Char) (negative : Bool) :
    readUnsignedDouble? negative (first :: rest) =
      (Decimal.read? (first :: rest)).map (·.toBinary64 negative) := by
  have noWord (start : Char) (others : List Char) (letter : start.isDigit = false) :
      (first :: rest).map Char.toLower ≠ start :: others := by
    rw [List.map_cons, toLower_of_isDigit digit]
    intro same
    rw [(List.cons.inj same).1, letter] at digit
    cases digit
  have isNot (word : String) (start : Char) (others : List Char)
      (spelled : word.toList = start :: others) (letter : start.isDigit = false) :
      (first :: rest).map Char.toLower ≠ word.toList := spelled ▸ noWord start others letter
  simp only [readUnsignedDouble?]
  rw [if_neg, if_neg]
  · exact isNot "nan" 'n' ['a', 'n'] rfl rfl
  · rintro (short | long)
    · exact isNot "inf" 'i' ['n', 'f'] rfl rfl short
    · exact isNot "infinity" 'i' "nfinity".toList rfl rfl long

theorem read_double?_with_sign {first : Char} (digit : first.isDigit = true) (rest : List Char)
    (negative : Bool) :
    readDouble? (withSign negative (first :: rest)) =
      (Decimal.read? (first :: rest)).map (·.toBinary64 negative) := by
  cases negative with
  | true => exact read_unsigned_double?_of_isDigit digit rest true
  | false =>
      simp only [withSign, Bool.false_eq_true, if_false, readDouble?, split_sign_of_isDigit digit]
      exact read_unsigned_double?_of_isDigit digit rest false

/-- A numeral begins with a digit, so it is neither signed nor one of the words. -/
theorem read_double?_of_is_numeral {text : List Char} (numeral : IsNumeral text) :
    readDouble? text = (Decimal.read? text).map (·.toBinary64 false) := by
  obtain ⟨first, rest, rfl, digit⟩ := exists_digit_of_is_numeral numeral
  exact read_double?_with_sign digit rest false

/-- The shortest digits of a magnitude, in full, read back as this magnitude. -/
theorem read_double?_positional_shortest (magnitude : Magnitude) (tie : TieRule) :
    readDouble? (magnitude.shortest tie).positional = some (.finite false magnitude) := by
  rw [read_double?_of_is_numeral (Decimal.is_numeral_positional _), Decimal.read?_positional,
    Option.map_some, Decimal.to_binary64_spelled_out (Magnitude.reads_back_shortest tie magnitude)]

end TableQuery
