import TableQuery.Proofs.Number.ReadBack

/-!
Decimals with one digit before the point and a power of ten. This layout also reads back as the
decimal that it was made from.
-/

namespace TableQuery

def powerText (exponent : Int) : List Char :=
  'e' :: (if exponent < 0 then '-' else '+') :: Nat.toDigits 10 exponent.natAbs

theorem read_exponent?_power_text (exponent : Int) :
    readExponent? (powerText exponent) = some exponent := by
  have digits := Decimal.all_digits_toDigits exponent.natAbs
  have size : Nat.ofDigitChars 10 (Nat.toDigits 10 exponent.natAbs) 0 = exponent.natAbs :=
    Nat.ofDigitChars_ten_toDigits
  by_cases negative : exponent < 0
  · have value : -(exponent.natAbs : Int) = exponent := by omega
    rw [powerText, if_pos negative]
    simp only [readExponent?, splitSign, digits, size, value, true_or, and_self, if_true]
  · have value : (exponent.natAbs : Int) = exponent := by omega
    rw [powerText, if_neg negative]
    simp only [readExponent?, splitSign, digits, size, value, true_or, and_self, if_true,
      Bool.false_eq_true, if_false]

namespace Decimal

theorem scientific_eq {decimal : Decimal} {first : Char} {rest : List Char}
    (digits : Nat.toDigits 10 decimal.digits = first :: rest) :
    decimal.scientific =
      first :: ((if rest = [] then [] else '.' :: rest) ++ powerText decimal.leadingExponent) := by
  rw [scientific, digits]
  cases rest <;> rfl

theorem cut_power_text {digits : List Char} (all : ∀ digit ∈ digits, digit.isDigit = true)
    (exponent : Int) :
    (digits ++ powerText exponent).takeWhile Char.isDigit = digits ∧
      (digits ++ powerText exponent).dropWhile Char.isDigit = powerText exponent := by
  have stop : ∀ character ∈ (powerText exponent).head?, character.isDigit = false := by
    intro character first
    cases first
    rfl
  exact span_append all (powerText exponent) stop

theorem read?_whole_power {whole : List Char} (isWhole : allDigits whole) (exponent : Int) :
    read? (whole ++ powerText exponent) = some ⟨Nat.ofDigitChars 10 whole 0, exponent⟩ := by
  rcases all_digits_iff.1 isWhole with ⟨nonempty, all⟩
  have cut := cut_power_text all exponent
  have noFraction : splitFraction (powerText exponent) = ([], powerText exponent) := rfl
  simp [read?, cut.1, cut.2, noFraction, nonempty, read_exponent?_power_text]

theorem read?_fraction_power {whole places : List Char} (isWhole : allDigits whole)
    (all : ∀ digit ∈ places, digit.isDigit = true) (exponent : Int) :
    read? (whole ++ '.' :: (places ++ powerText exponent)) =
      some ⟨Nat.ofDigitChars 10 (whole ++ places) 0, exponent - places.length⟩ := by
  rcases all_digits_iff.1 isWhole with ⟨nonempty, allWhole⟩
  have cut := span_append allWhole ('.' :: (places ++ powerText exponent)) (by simp)
  have cutPlaces := cut_power_text all exponent
  simp [read?, cut.1, cut.2, splitFraction, cutPlaces.1, cutPlaces.2, nonempty,
    read_exponent?_power_text]

theorem read?_scientific (decimal : Decimal) : read? decimal.scientific = some decimal := by
  rcases exists_cons_toDigits decimal.digits with ⟨first, rest, digits, digit, all⟩
  have isFirst := all_digits_singleton digit
  have value : Nat.ofDigitChars 10 (first :: rest) 0 = decimal.digits := by
    rw [← digits, Nat.ofDigitChars_ten_toDigits]
  have leading : decimal.leadingExponent - rest.length = decimal.exponent := by
    rw [leadingExponent, digits, List.length_cons]
    omega
  rw [scientific_eq digits]
  cases rest with
  | nil =>
      have same : decimal.leadingExponent = decimal.exponent := by simpa using leading
      have read := read?_whole_power isFirst decimal.leadingExponent
      rw [value, same] at read
      rw [same]
      exact read
  | cons second others =>
      have read := read?_fraction_power isFirst all decimal.leadingExponent
      rw [List.singleton_append, List.singleton_append, value, leading] at read
      exact read

end Decimal

end TableQuery
