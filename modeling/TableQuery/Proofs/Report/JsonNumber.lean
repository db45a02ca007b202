import TableQuery.Proofs.Number.Rounding
import TableQuery.Proofs.Number.Scientific
import TableQuery.Proofs.Report.JsonSyntax
import TableQuery.Report.Json

/-!
How a finite double is written in JSON. The spelling is a number of the grammar, it reads back as a
double that equals the one that was written, and it has neither a fraction nor an exponent exactly
when the double is a whole number of 64 signed bits.
-/

namespace TableQuery.Json

open Binary64

def IsPlain (numeral : List Char) : Prop := '.' ∉ numeral ∧ 'e' ∉ numeral ∧ 'E' ∉ numeral

/-- The double is this whole number, and 64 signed bits hold it. -/
def IsInteger64 (double : Binary64) (whole : Int) : Prop :=
  double.rank? = some (whole * quantaPerOne) ∧ -2 ^ 63 ≤ whole ∧ whole < 2 ^ 63

/-- A spelling of a finite double that loses nothing: it is a number of the grammar, it reads back
as the double, and it looks like an integer exactly where the double is one. -/
structure SpellsDouble (numeral : List Char) (double : Binary64) : Prop where
  isNumber : IsNumber numeral
  readsBack : ∃ back, readDouble? numeral = some back ∧ back.equals double = true
  plain : IsPlain numeral ↔ ∃ whole, IsInteger64 double whole
  exactly : ∀ whole, IsInteger64 double whole → numeral = (toString whole).toList

theorem is_number_with_sign {whole fraction exponent : List Char} (isWhole : IsWholeNumeral whole)
    (isFraction : IsFraction fraction) (isExponent : IsExponent exponent) (negative : Bool) :
    IsNumber (withSign negative (whole ++ (fraction ++ exponent))) := by
  cases negative with
  | true => exact .parts (.inr rfl) isWhole isFraction isExponent
  | false => exact .parts (.inl rfl) isWhole isFraction isExponent

theorem is_whole_numeral_toDigits (number : Nat) : IsWholeNumeral (Nat.toDigits 10 number) := by
  constructor
  · exact Decimal.all_digits_toDigits number
  · intro zero
    by_cases isZero : number = 0
    · rw [isZero]
      rfl
    · exact absurd zero (Decimal.head?_toDigits_ne_zero (Nat.pos_of_ne_zero isZero))

theorem is_number_positional {decimal : Decimal} (nonzero : decimal.digits ≠ 0) (negative : Bool) :
    IsNumber (withSign negative decimal.positional) := by
  by_cases broken : decimal.exponent < 0
  · rcases Decimal.exists_positional_split broken with
      ⟨whole, part, split, isWhole, isFraction, -, -, noLeadingZero⟩
    have isNumber :=
      is_number_with_sign ⟨isWhole, noLeadingZero⟩ (.places isFraction) .absent negative
    rw [List.append_nil, ← split] at isNumber
    exact isNumber
  · have isWhole : IsWholeNumeral decimal.positional := by
      rw [Decimal.positional_of_nonneg (Int.not_lt.1 broken)]
      constructor
      · exact Decimal.all_digits_append_zeros (Decimal.all_digits_toDigits _) _
      · intro zero
        rw [Decimal.head?_toDigits_append] at zero
        exact absurd zero (Decimal.head?_toDigits_ne_zero (Nat.pos_of_ne_zero nonzero))
    have isNumber := is_number_with_sign isWhole .absent .absent negative
    simpa using isNumber

theorem is_exponent_power_text (exponent : Int) : IsExponent (powerText exponent) := by
  have digits := Decimal.all_digits_toDigits exponent.natAbs
  unfold powerText
  split
  · exact .power (.inl rfl) (.inr (.inr rfl)) digits
  · exact .power (.inl rfl) (.inr (.inl rfl)) digits

theorem is_number_scientific (decimal : Decimal) (negative : Bool) :
    IsNumber (withSign negative decimal.scientific) := by
  rcases Decimal.exists_cons_toDigits decimal.digits with ⟨first, rest, digits, digit, all⟩
  have isFirst : IsWholeNumeral [first] := by
    refine ⟨all_digits_singleton digit, ?_⟩
    intro zero
    rw [Option.some.inj zero]
  have isFraction : IsFraction (if rest = [] then [] else '.' :: rest) := by
    split
    · exact .absent
    · rename_i nonempty
      exact .places (all_digits_iff.2 ⟨nonempty, all⟩)
  rw [Decimal.scientific_eq digits]
  exact is_number_with_sign isFirst isFraction (is_exponent_power_text _) negative

theorem not_is_plain_positional {decimal : Decimal} (broken : decimal.exponent < 0)
    (negative : Bool) : ¬IsPlain (withSign negative decimal.positional) := by
  rcases Decimal.exists_positional_split broken with ⟨whole, part, split, -⟩
  rintro ⟨noPoint, -⟩
  apply noPoint
  rw [split]
  cases negative <;> simp [withSign]

theorem not_is_plain_scientific (decimal : Decimal) (negative : Bool) :
    ¬IsPlain (withSign negative decimal.scientific) := by
  rcases Decimal.exists_cons_toDigits decimal.digits with ⟨first, rest, digits, -⟩
  rintro ⟨-, noPower, -⟩
  apply noPower
  rw [Decimal.scientific_eq digits, powerText]
  cases negative <;> simp [withSign]

theorem read_double?_positional {magnitude : Magnitude} {decimal : Decimal}
    (readsBack : magnitude.ReadsBack decimal) (negative : Bool) :
    readDouble? (withSign negative decimal.positional) = some (.finite negative magnitude) := by
  have spelledOut : magnitude.ReadsBack decimal.spelledOut :=
    Decimal.to_binary64_spelled_out readsBack
  have read := decimal.read?_positional
  rcases exists_digit_of_is_numeral decimal.is_numeral_positional with ⟨first, rest, same, digit⟩
  rw [same] at read ⊢
  rw [read_double?_with_sign digit, read, Option.map_some,
    Magnitude.to_binary64_of_reads_back spelledOut]

theorem read_double?_scientific {magnitude : Magnitude} {decimal : Decimal}
    (readsBack : magnitude.ReadsBack decimal) (negative : Bool) :
    readDouble? (withSign negative decimal.scientific) = some (.finite negative magnitude) := by
  have read := decimal.read?_scientific
  rcases Decimal.exists_cons_toDigits decimal.digits with ⟨first, rest, digits, digit, -⟩
  rw [Decimal.scientific_eq digits] at read ⊢
  rw [read_double?_with_sign digit, read, Option.map_some,
    Magnitude.to_binary64_of_reads_back readsBack]

theorem equals_of_rank {left right : Binary64} {rank : Int} (isLeft : left.rank? = some rank)
    (isRight : right.rank? = some rank) : left.equals right = true := by
  simp [equals, compare?, isLeft, isRight]

theorem natAbs_signed (negative : Bool) (quanta : Nat) :
    (signed negative quanta).natAbs = quanta := by
  cases negative <;> simp [signed]

theorem signed_mul (negative : Bool) (whole factor : Nat) :
    signed negative (whole * factor) = signed negative whole * factor := by
  cases negative with
  | false => exact Int.natCast_mul whole factor
  | true =>
      have product : ((whole * factor : Nat) : Int) = whole * factor := Int.natCast_mul whole factor
      simp only [signed, if_true, product, Int.neg_mul]

theorem fits_integer_iff (negative : Bool) (whole : Nat) :
    fitsInteger negative whole = true ↔
      -2 ^ 63 ≤ signed negative whole ∧ signed negative whole < 2 ^ 63 := by
  cases negative with
  | false =>
      have value : signed false whole = whole := rfl
      rw [fitsInteger, if_neg Bool.false_ne_true, decide_eq_true_iff, value]
      omega
  | true =>
      have value : signed true whole = -(whole : Int) := rfl
      rw [fitsInteger, if_pos rfl, decide_eq_true_iff, value]
      omega

theorem is_integer64_iff {negative : Bool} {magnitude : Magnitude} {whole : Int} :
    IsInteger64 (.finite negative magnitude) whole ↔
      (magnitude.IsWhole ∧ fitsInteger negative magnitude.wholePart = true) ∧
        whole = signed negative magnitude.wholePart := by
  have nonzero : (quantaPerOne : Int) ≠ 0 := by exact_mod_cast quanta_per_one_pos.ne'
  constructor
  · rintro ⟨rank, lower, upper⟩
    have same : signed negative magnitude.quanta = whole * quantaPerOne := Option.some.inj rank
    have size : magnitude.quanta = whole.natAbs * quantaPerOne := by
      have sizes := congrArg Int.natAbs same
      rwa [natAbs_signed, Int.natAbs_mul, Int.natAbs_natCast] at sizes
    have isWhole : magnitude.IsWhole := ⟨whole.natAbs, by rw [size, Nat.mul_comm]⟩
    rw [← Magnitude.whole_part_mul isWhole, signed_mul] at same
    have value := Int.eq_of_mul_eq_mul_right nonzero same
    rw [fits_integer_iff, value]
    exact ⟨⟨isWhole, lower, upper⟩, rfl⟩
  · rintro ⟨⟨isWhole, fits⟩, rfl⟩
    refine ⟨?_, (fits_integer_iff _ _).1 fits⟩
    rw [rank?, ← Magnitude.whole_part_mul isWhole, signed_mul]

/-- An integer is written as whole numbers are everywhere. -/
theorem integer_eq_toString (negative : Bool) (whole : Nat) :
    integer negative whole = (toString (signed negative whole)).toList := by
  rw [Int.toString_eq_repr, Int.repr_eq_if]
  cases negative with
  | false =>
      have nonneg : (0 : Int) ≤ signed false whole := Int.natCast_nonneg whole
      rw [if_pos nonneg, Nat.toList_repr]
      rfl
  | true =>
      cases whole with
      | zero => rfl
      | succ whole =>
          have value : signed true (whole + 1) = -((whole + 1 : Nat) : Int) := rfl
          have below : ¬(0 : Int) ≤ signed true (whole + 1) := by omega
          have size : (-signed true (whole + 1)).toNat = whole + 1 := by omega
          rw [if_neg below, String.toList_append, Nat.toList_repr, size]
          rfl

theorem is_number_integer (negative : Bool) (whole : Nat) : IsNumber (integer negative whole) := by
  have isNumber := is_number_with_sign (is_whole_numeral_toDigits whole) .absent .absent
    (negative && whole != 0)
  simpa [integer] using isNumber

theorem is_plain_integer (negative : Bool) (whole : Nat) : IsPlain (integer negative whole) := by
  have characters : ∀ character ∈ integer negative whole,
      character = '-' ∨ character.isDigit = true := by
    intro character member
    have digits := (all_digits_iff.1 (Decimal.all_digits_toDigits whole)).2
    rw [integer, withSign] at member
    split at member
    · rcases List.mem_cons.1 member with minus | digit
      · exact .inl minus
      · exact .inr (digits character digit)
    · exact .inr (digits character member)
  refine ⟨?_, ?_, ?_⟩ <;>
    · intro member
      rcases characters _ member with minus | digit
      · exact absurd minus (by decide)
      · exact absurd digit (by decide)

/-- A zero loses its sign, but both zeros are equal. -/
theorem read_double?_integer {magnitude : Magnitude} (isWhole : magnitude.IsWhole)
    (negative : Bool) :
    ∃ back, readDouble? (integer negative magnitude.wholePart) = some back ∧
      back.equals (.finite negative magnitude) = true := by
  have read := Decimal.read?_whole (Decimal.all_digits_toDigits magnitude.wholePart)
  rcases Decimal.exists_cons_toDigits magnitude.wholePart with ⟨first, rest, same, digit, -⟩
  rw [Nat.ofDigitChars_ten_toDigits] at read
  refine ⟨.finite (negative && magnitude.wholePart != 0) magnitude, ?_, ?_⟩
  · rw [integer, same, read_double?_with_sign digit, ← same, read, Option.map_some,
      Magnitude.to_binary64_of_reads_back (Magnitude.reads_back_whole_part isWhole)]
  · by_cases isZero : magnitude.wholePart = 0
    · have quanta : magnitude.quanta = 0 := by
        rw [← Magnitude.whole_part_mul isWhole, isZero, Nat.zero_mul]
      have rank : ∀ sign, (Binary64.finite sign magnitude).rank? = some 0 := by
        intro sign
        rw [rank?, quanta]
        cases sign <;> rfl
      exact equals_of_rank (rank _) (rank _)
    · have kept : (negative && magnitude.wholePart != 0) = negative := by simp [isZero]
      rw [kept]
      exact equals_of_rank rfl rfl

theorem spells_double_integer {negative : Bool} {magnitude : Magnitude}
    (isWhole : magnitude.IsWhole) (fits : fitsInteger negative magnitude.wholePart = true) :
    SpellsDouble (integer negative magnitude.wholePart) (.finite negative magnitude) where
  isNumber := is_number_integer negative magnitude.wholePart
  readsBack := read_double?_integer isWhole negative
  plain := ⟨fun _ => ⟨_, is_integer64_iff.2 ⟨⟨isWhole, fits⟩, rfl⟩⟩,
    fun _ => is_plain_integer negative magnitude.wholePart⟩
  exactly := by
    intro whole integer64
    rw [(is_integer64_iff.1 integer64).2]
    exact integer_eq_toString negative magnitude.wholePart

/-- A decimal with no places and at most sixteen digits is a whole number of 64 bits, so a number
that is none has places if it is written in full. -/
theorem exponent_neg_of_not_fits {magnitude : Magnitude} {decimal : Decimal} {negative : Bool}
    (readsBack : magnitude.ReadsBack decimal) (short : decimal.leadingExponent < 16)
    (other : ¬(magnitude.IsWhole ∧ fitsInteger negative magnitude.wholePart = true)) :
    decimal.exponent < 0 := by
  by_contra noPlaces
  have isWhole := Magnitude.is_whole_of_reads_back readsBack (Int.not_lt.1 noPlaces)
  apply other
  refine ⟨isWhole, ?_⟩
  have bound : magnitude.quanta < 2 * 10 ^ 16 * quantaPerOne :=
    Magnitude.quanta_lt_of_leading_exponent_lt readsBack short
  rw [← Magnitude.whole_part_mul isWhole] at bound
  have small := Nat.lt_of_mul_lt_mul_right bound
  rw [fitsInteger]
  split <;> exact decide_eq_true (by omega)

theorem spells_double_of_not_is_plain {negative : Bool} {magnitude : Magnitude}
    {numeral : List Char}
    (other : ¬(magnitude.IsWhole ∧ fitsInteger negative magnitude.wholePart = true))
    (isNumber : IsNumber numeral) (notPlain : ¬IsPlain numeral)
    (reads : readDouble? numeral = some (.finite negative magnitude)) :
    SpellsDouble numeral (.finite negative magnitude) := by
  have never : ∀ whole, ¬IsInteger64 (.finite negative magnitude) whole := by
    intro whole integer64
    exact other (is_integer64_iff.1 integer64).1
  constructor
  · exact isNumber
  · exact ⟨_, reads, equals_of_rank rfl rfl⟩
  · constructor
    · exact fun plain => absurd plain notPlain
    · exact fun ⟨whole, integer64⟩ => absurd integer64 (never whole)
  · exact fun whole integer64 => absurd integer64 (never whole)

theorem spells_double_short_decimal {negative : Bool} {magnitude : Magnitude}
    (other : ¬(magnitude.IsWhole ∧ fitsInteger negative magnitude.wholePart = true)) :
    SpellsDouble (withSign negative (shortDecimal (magnitude.shortest .toEven)))
      (.finite negative magnitude) := by
  have readsBack := Magnitude.reads_back_shortest .toEven magnitude
  generalize magnitude.shortest .toEven = decimal at readsBack ⊢
  have nonzero : magnitude.quanta ≠ 0 := by
    intro isZero
    apply other
    rw [Magnitude.IsWhole, Magnitude.wholePart, isZero, Nat.zero_div]
    exact ⟨Nat.dvd_zero _, by cases negative <;> rfl⟩
  have digits := (Magnitude.quanta_of_reads_back readsBack nonzero).1
  rw [shortDecimal]
  split
  · rename_i range
    apply spells_double_of_not_is_plain other
    · exact is_number_positional digits negative
    · exact not_is_plain_positional (exponent_neg_of_not_fits readsBack range.2 other) negative
    · exact read_double?_positional readsBack negative
  · apply spells_double_of_not_is_plain other
    · exact is_number_scientific decimal negative
    · exact not_is_plain_scientific decimal negative
    · exact read_double?_scientific readsBack negative

theorem spells_double_number (negative : Bool) (magnitude : Magnitude) :
    SpellsDouble (number (.finite negative magnitude)) (.finite negative magnitude) := by
  rw [number]
  split
  · rename_i integer64
    exact spells_double_integer integer64.1 integer64.2
  · rename_i other
    exact spells_double_short_decimal other

end TableQuery.Json
