import TableQuery.Proofs.Number.Nearest

/-!
The written form of decimals as a grammar, each text with the number that it spells. The reader
accepts the texts of this grammar and no others, and what it reads is that number exactly.
-/

namespace TableQuery

inductive SpellsSign : List Char → Bool → Prop
  | absent : SpellsSign [] false
  | plus : SpellsSign ['+'] false
  | minus : SpellsSign ['-'] true

def natOfDigits (digits : List Char) : Nat := Nat.ofDigitChars 10 digits 0

/-- `Digit+ | Digit+ "." Digit* | "." Digit+`. -/
inductive SpellsSignificand : List Char → ℚ → Prop
  | whole {digits : List Char} (isWhole : allDigits digits) :
      SpellsSignificand digits (natOfDigits digits)
  | pointed {digits places : List Char} (isWhole : allDigits digits)
      (isFraction : ∀ place ∈ places, place.isDigit = true) :
      SpellsSignificand (digits ++ '.' :: places)
        (natOfDigits digits + natOfDigits places / 10 ^ places.length)
  | fraction {places : List Char} (isFraction : allDigits places) :
      SpellsSignificand ('.' :: places) (natOfDigits places / 10 ^ places.length)

/-- An optional power of ten, `("e" | "E") ("+" | "-")? Digit+`. -/
inductive SpellsPower : List Char → Int → Prop
  | absent : SpellsPower [] 0
  | power {mark : Char} {sign digits : List Char} {negative : Bool}
      (isMark : mark = 'e' ∨ mark = 'E') (isSign : SpellsSign sign negative)
      (isDigits : allDigits digits) :
      SpellsPower (mark :: (sign ++ digits))
        (if negative then -(natOfDigits digits : Int) else natOfDigits digits)

inductive SpellsDecimal : List Char → ℚ → Prop
  | parts {front back : List Char} {significand : ℚ} {exponent : Int}
      (isSignificand : SpellsSignificand front significand) (isPower : SpellsPower back exponent) :
      SpellsDecimal (front ++ back) (significand * 10 ^ exponent)

theorem split_sign_append {sign text : List Char} {negative : Bool}
    (isSign : SpellsSign sign negative) (noPlus : text.head? ≠ some '+')
    (noMinus : text.head? ≠ some '-') : splitSign (sign ++ text) = (negative, text) := by
  cases isSign with
  | absent => exact split_sign_of_plain noPlus noMinus
  | plus => rfl
  | minus => rfl

theorem exists_sign (text : List Char) :
    ∃ sign, SpellsSign sign (splitSign text).1 ∧ text = sign ++ (splitSign text).2 := by
  unfold splitSign
  split
  · exact ⟨['+'], .plus, rfl⟩
  · exact ⟨['-'], .minus, rfl⟩
  · exact ⟨[], .absent, rfl⟩

theorem head?_ne_of_all_digits {text : List Char} (isDigits : allDigits text) {other : Char}
    (noDigit : other.isDigit = false) : text.head? ≠ some other := by
  obtain ⟨first, rest, rfl, digit, -⟩ := exists_cons_of_all_digits isDigits
  intro same
  exact ne_of_test digit noDigit (Option.some.inj same)

theorem read_exponent?_of_spells_power {text : List Char} {exponent : Int}
    (spelled : SpellsPower text exponent) : readExponent? text = some exponent := by
  cases spelled with
  | absent => rfl
  | power isMark isSign isDigits =>
      have split := split_sign_append isSign (head?_ne_of_all_digits isDigits rfl)
        (head?_ne_of_all_digits isDigits rfl)
      simp only [readExponent?, split]
      rw [if_pos ⟨isMark, isDigits⟩]
      rfl

theorem spells_power_of_read_exponent? {text : List Char} {exponent : Int}
    (found : readExponent? text = some exponent) : SpellsPower text exponent := by
  cases text with
  | nil =>
      cases found
      exact .absent
  | cons mark rest =>
      obtain ⟨sign, isSign, split⟩ := exists_sign rest
      simp only [readExponent?] at found
      generalize splitSign rest = parts at isSign split found
      obtain ⟨negative, digits⟩ := parts
      rw [split]
      dsimp only at found
      by_cases isPower : (mark = 'e' ∨ mark = 'E') ∧ allDigits digits = true
      · rw [if_pos isPower] at found
        cases found
        exact .power isPower.1 isSign isPower.2
      · rw [if_neg isPower] at found
        cases found

theorem SpellsPower.plain {text : List Char} {exponent : Int}
    (spelled : SpellsPower text exponent) :
    ∀ character ∈ text.head?, character.isDigit = false ∧ character ≠ '.' := by
  intro character first
  cases spelled with
  | absent => cases first
  | power isMark =>
      cases first
      rcases isMark with rfl | rfl <;> decide

namespace Decimal

theorem exists_split_of_spells_significand {front back : List Char} {significand : ℚ}
    {exponent : Int} (isSignificand : SpellsSignificand front significand)
    (isPower : SpellsPower back exponent) :
    ∃ whole places, (front ++ back).takeWhile Char.isDigit = whole ∧
      splitFraction ((front ++ back).dropWhile Char.isDigit) = (places, back) ∧
      (whole.isEmpty && places.isEmpty) = false ∧
      significand = natOfDigits whole + natOfDigits places / 10 ^ places.length := by
  have stop : ∀ character ∈ back.head?, character.isDigit = false :=
    fun character first => (isPower.plain character first).1
  cases isSignificand with
  | whole isWhole =>
      have cut := span_append (all_digits_iff.1 isWhole).2 back stop
      have noFraction : splitFraction back = ([], back) := by
        unfold splitFraction
        split
        · exact absurd rfl (isPower.plain '.' rfl).2
        · rfl
      refine ⟨front, [], cut.1, ?_, ?_, ?_⟩
      · rw [cut.2, noFraction]
      · simp [(all_digits_iff.1 isWhole).1]
      · simp [natOfDigits]
  | @pointed digits places isWhole isFraction =>
      have cut := span_append (all_digits_iff.1 isWhole).2 ('.' :: (places ++ back)) (by simp)
      have cutPlaces := span_append isFraction back stop
      refine ⟨digits, places, ?_, ?_, ?_, rfl⟩
      · rw [List.append_assoc, List.cons_append, cut.1]
      · rw [List.append_assoc, List.cons_append, cut.2, splitFraction, cutPlaces.1, cutPlaces.2]
      · simp [(all_digits_iff.1 isWhole).1]
  | @fraction places isFraction =>
      have cutPlaces := span_append (all_digits_iff.1 isFraction).2 back stop
      refine ⟨[], places, rfl, ?_, ?_, ?_⟩
      · have pointed : ('.' :: places ++ back).dropWhile Char.isDigit = '.' :: (places ++ back) :=
          rfl
        rw [pointed, splitFraction, cutPlaces.1, cutPlaces.2]
      · simp [(all_digits_iff.1 isFraction).1]
      · simp [natOfDigits]

theorem value_of_parts (whole places : List Char) (exponent : Int) :
    value ⟨natOfDigits (whole ++ places), exponent - places.length⟩ =
      (natOfDigits whole + natOfDigits places / 10 ^ places.length) * 10 ^ exponent := by
  have digits : natOfDigits (whole ++ places) =
      10 ^ places.length * natOfDigits whole + natOfDigits places := by
    rw [natOfDigits, Nat.ofDigitChars_append, Nat.ofDigitChars_eq_ofDigitChars_zero]
    rfl
  have nonzero : (10 : ℚ) ≠ 0 := by norm_num
  have scale : (10 : ℚ) ^ places.length ≠ 0 := pow_ne_zero _ nonzero
  rw [value, digits, zpow_sub₀ nonzero, zpow_natCast]
  push_cast
  field_simp

theorem exists_read?_of_spells_decimal {text : List Char} {exact : ℚ}
    (spelled : SpellsDecimal text exact) :
    ∃ decimal, read? text = some decimal ∧ decimal.value = exact := by
  obtain ⟨isSignificand, isPower⟩ := spelled
  obtain ⟨whole, places, cut, split, someDigit, rfl⟩ :=
    exists_split_of_spells_significand isSignificand isPower
  refine ⟨_, ?_, value_of_parts whole places _⟩
  simp only [read?, cut, split, someDigit, read_exponent?_of_spells_power isPower]
  rfl

theorem exists_significand {text places suffix : List Char}
    (split : splitFraction (text.dropWhile Char.isDigit) = (places, suffix))
    (someDigit : ((text.takeWhile Char.isDigit).isEmpty && places.isEmpty) = false) :
    ∃ front, text = front ++ suffix ∧
      SpellsSignificand front (natOfDigits (text.takeWhile Char.isDigit) +
        natOfDigits places / 10 ^ places.length) := by
  have cut : text = text.takeWhile Char.isDigit ++ text.dropWhile Char.isDigit :=
    List.takeWhile_append_dropWhile.symm
  have nonempty : text.takeWhile Char.isDigit ≠ [] → allDigits (text.takeWhile Char.isDigit) :=
    all_digits_takeWhile
  generalize text.takeWhile Char.isDigit = whole at cut someDigit nonempty ⊢
  generalize text.dropWhile Char.isDigit = rest at cut split
  unfold splitFraction at split
  split at split
  · rename_i afterPoint
    cases split
    have cutPlaces : afterPoint = afterPoint.takeWhile Char.isDigit ++
        afterPoint.dropWhile Char.isDigit := List.takeWhile_append_dropWhile.symm
    refine ⟨whole ++ '.' :: afterPoint.takeWhile Char.isDigit, ?_, ?_⟩
    · rw [List.append_assoc, List.cons_append, ← cutPlaces]
      exact cut
    · cases whole with
      | nil =>
          have somePlace : afterPoint.takeWhile Char.isDigit ≠ [] := by
            intro empty
            rw [empty] at someDigit
            cases someDigit
          simpa [natOfDigits] using SpellsSignificand.fraction (all_digits_takeWhile somePlace)
      | cons first others =>
          exact .pointed (nonempty (List.cons_ne_nil _ _)) fun _ => test_of_mem_takeWhile
  · cases split
    have someWhole : whole ≠ [] := by
      rintro rfl
      cases someDigit
    refine ⟨whole, cut, ?_⟩
    simpa [natOfDigits] using SpellsSignificand.whole (nonempty someWhole)

/-- The reader accepts no text outside the grammar. Every text that it reads is cut into the parts
that the grammar names, and each of them is of the right kind. -/
theorem spells_decimal_of_read? {text : List Char} {decimal : Decimal}
    (found : read? text = some decimal) : SpellsDecimal text decimal.value := by
  unfold read? at found
  cases split : splitFraction (text.dropWhile Char.isDigit)
  rename_i places suffix
  simp only [split] at found
  by_cases noDigit : ((text.takeWhile Char.isDigit).isEmpty && places.isEmpty) = true
  · rw [if_pos noDigit] at found
    cases found
  · rw [if_neg noDigit] at found
    obtain ⟨front, cut, isSignificand⟩ := exists_significand split (Bool.eq_false_iff.2 noDigit)
    obtain ⟨exponent, power, same⟩ := Option.bind_eq_some_iff.1 found
    cases same
    have spelled := SpellsDecimal.parts isSignificand (spells_power_of_read_exponent? power)
    rw [← cut, ← value_of_parts] at spelled
    exact spelled

end Decimal

end TableQuery
