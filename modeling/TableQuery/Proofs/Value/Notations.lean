import TableQuery.Proofs.Value.Coercion
import TableQuery.Proofs.Number.DigitByDigit
import TableQuery.Proofs.Text.Trimming

/-!
One whole number in its notations. In base 10 the whole numeral is rounded once, to the nearest
double. In base 16, 8 and 2 the digits are appended one at a time, which leaves the double nearest
to the settled number. So all notations of a number below `2 ^ 53` become one double, and a longer
one in base 16, 8 or 2 may become the next lower double.
-/

namespace TableQuery

def SpellsDigit (radix : Nat) (character : Char) (digit : Nat) : Prop :=
  digit < radix ∧ (character = Nat.digitChar digit ∨ character = (Nat.digitChar digit).toUpper)

/-- Digits from the leading one to the last, with the number that they spell. -/
inductive SpellsWhole (radix : Nat) : List Char → Nat → Prop
  | digit {character : Char} {digit : Nat} (isDigit : SpellsDigit radix character digit) :
      SpellsWhole radix [character] digit
  | append {front : List Char} {number : Nat} {character : Char} {digit : Nat}
      (isFront : SpellsWhole radix front number) (isDigit : SpellsDigit radix character digit) :
      SpellsWhole radix (front ++ [character]) (number * radix + digit)

namespace SpellsWhole

variable {radix number : Nat} {numeral : List Char}

theorem zero_cons (positive : 0 < radix) (spelled : SpellsWhole radix numeral number) :
    SpellsWhole radix ('0' :: numeral) number := by
  have zero : SpellsWhole radix ['0'] 0 := .digit ⟨positive, .inl rfl⟩
  induction spelled with
  | @digit character digit isDigit =>
      have two := zero.append isDigit
      rwa [Nat.zero_mul, Nat.zero_add] at two
  | append isFront isDigit induction => exact induction.append isDigit

theorem toDigits (two : 2 ≤ radix) (number : Nat) :
    SpellsWhole radix (Nat.toDigits radix number) number := by
  induction number using Nat.strongRecOn with
  | ind number induction =>
      rw [Nat.toDigits_eq_if (by omega)]
      split
      · rename_i small
        exact .digit ⟨small, .inl rfl⟩
      · rename_i large
        have front := induction (number / radix) (Nat.div_lt_self (by omega) two)
        have last : SpellsDigit radix (Nat.digitChar (number % radix)) (number % radix) :=
          ⟨Nat.mod_lt _ (by omega), .inl rfl⟩
        have whole := front.append last
        rwa [Nat.mul_comm, Nat.div_add_mod] at whole

theorem is_decimal (spelled : SpellsWhole 10 numeral number) :
    allDigits numeral ∧ natOfDigits numeral = number := by
  have ofDigit {character : Char} {digit : Nat} (isDigit : SpellsDigit 10 character digit) :
      character.isDigit = true ∧ natOfDigits [character] = digit := by
    obtain ⟨small, rfl | rfl⟩ := isDigit <;> revert digit <;> decide
  induction spelled with
  | digit isDigit => exact ⟨all_digits_singleton (ofDigit isDigit).1, (ofDigit isDigit).2⟩
  | append isFront isDigit induction =>
      obtain ⟨inFront, value⟩ := induction
      constructor
      · rw [all_digits_iff] at inFront ⊢
        refine ⟨by simp, List.forall_mem_append.2 ⟨inFront.2, ?_⟩⟩
        exact List.forall_mem_singleton.2 (ofDigit isDigit).1
      · rw [natOfDigits, Nat.ofDigitChars_append, Nat.ofDigitChars_eq_ofDigitChars_zero,
          ← natOfDigits, ← natOfDigits, value, (ofDigit isDigit).2]
        simp [Nat.mul_comm]

theorem exists_mapM {rule : RadixRule} (known : rule ∈ radixRules)
    (spelled : SpellsWhole rule.radix numeral number) :
    ∃ digits, numeral.mapM (digitValue? rule.radix) = some digits ∧ digits ≠ [] ∧
      (∀ digit ∈ digits, digit < rule.radix) ∧ wholeOfDigits rule.radix digits = number := by
  have values : ∀ rule ∈ radixRules, ∀ digit < rule.radix,
      digitValue? rule.radix (Nat.digitChar digit) = some digit ∧
        digitValue? rule.radix (Nat.digitChar digit).toUpper = some digit := by
    decide
  have ofDigit {character : Char} {digit : Nat} (isDigit : SpellsDigit rule.radix character digit) :
      digitValue? rule.radix character = some digit := by
    obtain ⟨small, rfl | rfl⟩ := isDigit
    · exact (values rule known digit small).1
    · exact (values rule known digit small).2
  induction spelled with
  | @digit character digit isDigit =>
      refine ⟨[digit], ?_, by simp, by simpa using isDigit.1, ?_⟩
      · simp [ofDigit isDigit]
      · simp [wholeOfDigits]
  | @append front number character digit isFront isDigit induction =>
      obtain ⟨digits, read, nonempty, bounded, value⟩ := induction
      refine ⟨digits ++ [digit], ?_, by simp, ?_, ?_⟩
      · simp [List.mapM_append, read, ofDigit isDigit]
      · exact List.forall_mem_append.2 ⟨bounded, List.forall_mem_singleton.2 isDigit.1⟩
      · rw [whole_of_digits_concat, value]

end SpellsWhole

theorem exists_radix_eq {rule : RadixRule} (known : rule ∈ radixRules) :
    ∃ bits, 0 < bits ∧ rule.radix = 2 ^ bits := by
  simp only [radixRules, List.mem_cons, List.not_mem_nil, or_false] at known
  rcases known with rfl | rfl | rfl
  · exact ⟨4, by decide, rfl⟩
  · exact ⟨3, by decide, rfl⟩
  · exact ⟨1, by decide, rfl⟩

/-- A mark ends the decimal that begins before it, and nothing of a decimal follows it. -/
theorem Decimal.read?_of_is_mark {rule : RadixRule} (known : rule ∈ radixRules) {mark : Char}
    (isMark : mark ∈ rule.marks) (numeral : List Char) :
    Decimal.read? ('0' :: mark :: numeral) = none := by
  have noDecimal : ∀ rule ∈ radixRules, rule.marks.all fun mark =>
      mark.isDigit = false ∧ mark ≠ '.' ∧ mark ≠ 'e' ∧ mark ≠ 'E' := by
    decide
  obtain ⟨noDigit, noPoint, noPower, noCapital⟩ :=
    of_decide_eq_true (List.all_eq_true.1 (noDecimal rule known) mark isMark)
  have whole : ('0' :: mark :: numeral).takeWhile Char.isDigit = ['0'] ∧
      ('0' :: mark :: numeral).dropWhile Char.isDigit = mark :: numeral := by
    simp [noDigit]
  have noFraction : splitFraction (mark :: numeral) = ([], mark :: numeral) := by
    unfold splitFraction
    split
    · rename_i same
      exact absurd (List.cons.inj same).1 noPoint
    · rfl
  have noExponent : readExponent? (mark :: numeral) = none := by
    simp only [readExponent?]
    exact if_neg fun isPower => isPower.1.elim noPower noCapital
  simp only [Decimal.read?, whole.1, whole.2, noFraction, noExponent]
  rfl

theorem read_number?_of_is_mark {rule : RadixRule} (known : rule ∈ radixRules) {mark : Char}
    (isMark : mark ∈ rule.marks) (numeral : List Char) :
    readNumber? ('0' :: mark :: numeral) = readRadixNumeral? ('0' :: mark :: numeral) := by
  have split : splitSign ('0' :: mark :: numeral) = (false, '0' :: mark :: numeral) :=
    split_sign_of_isDigit rfl _
  have noWord : '0' :: mark :: numeral ≠ "Infinity".toList := by
    intro same
    exact absurd (List.cons.inj same).1 (by decide)
  simp only [readNumber?, split, if_neg noWord, Decimal.read?_of_is_mark known isMark]

theorem read_radix_numeral?_of_spells_whole {rule : RadixRule} (known : rule ∈ radixRules)
    {mark : Char} (isMark : mark ∈ rule.marks) {numeral : List Char} {number : Nat}
    (spelled : SpellsWhole rule.radix numeral number) :
    readRadixNumeral? ('0' :: mark :: numeral) =
      some (.ofWhole (settled rule.radix number)) := by
  obtain ⟨digits, read, nonempty, bounded, value⟩ := spelled.exists_mapM known
  have base : radixOfMark? mark = some rule.radix :=
    radix_of_mark?_eq_some_iff.2 ⟨rule, known, isMark, rfl⟩
  obtain ⟨bits, someBits, radix⟩ := exists_radix_eq known
  have appended : Binary64.ofRadixDigits rule.radix digits =
      .ofWhole (settled rule.radix number) := by
    rw [radix] at bounded value ⊢
    rw [of_radix_digits_eq someBits bounded, value]
  simp [readRadixNumeral?, base, read, nonempty, appended]

theorem is_whitespace_eq_false_of_is_radix_numeral {text : List Char}
    (isNumeral : IsRadixNumeral text) :
    ∀ character ∈ text, isWhitespace character = false := by
  have white : ∀ rule ∈ radixRules, ('0' :: (rule.marks ++ rule.digits)).all fun character =>
      isWhitespace character = false := by
    decide
  cases isNumeral with
  | @numeral rule mark digits known isMark nonempty isDigits =>
      intro character member
      apply of_decide_eq_true (List.all_eq_true.1 (white rule known) character _)
      rcases List.mem_cons.1 member with rfl | member
      · exact List.mem_cons_self
      · apply List.mem_cons_of_mem
        rcases List.mem_cons.1 member with rfl | digit
        · exact List.mem_append_left _ isMark
        · exact List.mem_append_right _ (isDigits character digit)

namespace Value

variable {text : String} {number : Nat}

theorem coerce_decimal_numeral (spelled : SpellsWhole 10 text.toList number) :
    coerce text = .number (.ofWhole number) := by
  obtain ⟨isDigits, value⟩ := spelled.is_decimal
  have plain : trim text.toList = [] ++ (text.toList ++ []) := by
    rw [List.nil_append, List.append_nil]
    apply trim_of_plain
    intro character member
    exact is_whitespace_eq_false_of_isDigit ((all_digits_iff.1 isDigits).2 character member)
  have isDecimal := SpellsDecimal.parts (.whole isDigits) .absent
  rw [coerce_eq_number_iff_rounds .absent isDecimal plain, value, zpow_zero, mul_one]
  exact Binary64.rounds_of_whole number

theorem coerce_radix_numeral {rule : RadixRule} (known : rule ∈ radixRules) {mark : Char}
    (isMark : mark ∈ rule.marks) {numeral : List Char}
    (marked : text.toList = '0' :: mark :: numeral)
    (spelled : SpellsWhole rule.radix numeral number) :
    coerce text = .number (.ofWhole (settled rule.radix number)) := by
  have read := read_radix_numeral?_of_spells_whole known isMark spelled
  have isNumeral := isSome_read_radix_numeral?_iff.1 (Option.isSome_of_eq_some read)
  have plain := trim_of_plain (is_whitespace_eq_false_of_is_radix_numeral isNumeral)
  rw [coerce_eq_number_iff, marked, plain, read_number?_of_is_mark known isMark, read]

/-- A whole number is rounded once from its decimal digits. From its digits in base 16, 8 or 2 the
double nearest to the settled number is reached, and this one is the same exactly where settling
does not leave a finite tie that goes down. -/
theorem coerce_notations (number : Nat) :
    ∃ nearest, Binary64.Rounds false number nearest ∧
      (∀ text : String, SpellsWhole 10 text.toList number → coerce text = .number nearest) ∧
      ∀ rule ∈ radixRules, ∀ mark ∈ rule.marks, ∀ (text : String) (numeral : List Char),
        text.toList = '0' :: mark :: numeral → SpellsWhole rule.radix numeral number →
        (∃ double, coerce text = .number double ∧
          Binary64.Rounds false (settled rule.radix number) double) ∧
        (coerce text = .number nearest ↔
          ¬(settled rule.radix number ≠ number ∧ settled rule.radix number < wholeLimit ∧
            TiesDown (settled rule.radix number))) := by
  refine ⟨.ofWhole number, Binary64.rounds_of_whole number, ?_, ?_⟩
  · intro text spelled
    exact coerce_decimal_numeral spelled
  · intro rule known mark isMark text numeral marked spelled
    have value := coerce_radix_numeral known isMark marked spelled
    refine ⟨⟨_, value, Binary64.rounds_of_whole _⟩, ?_⟩
    obtain ⟨bits, someBits, radix⟩ := exists_radix_eq known
    rw [value, Value.number.injEq, radix]
    exact of_whole_settled_eq_iff someBits number

/-- With leading zeros and a capital digit: the last digit is beyond all places that count. -/
theorem coerce_notations_capital :
    ∃ nearest, Binary64.Rounds false (2 ^ 60 + 15 : Nat) nearest ∧
      coerce "01152921504606846991" = .number nearest ∧
      coerce "0X0100000000000000F" = .number nearest := by
  obtain ⟨nearest, rounds, decimal, marked⟩ := coerce_notations (2 ^ 60 + 15)
  have decimalDigits : "01152921504606846991".toList = '0' :: Nat.toDigits 10 (2 ^ 60 + 15) := by
    decide +kernel
  have spelledDecimal : SpellsWhole 10 "01152921504606846991".toList (2 ^ 60 + 15) := by
    rw [decimalDigits]
    exact .zero_cons (by decide) (.toDigits (by decide) _)
  have digits : "0X0100000000000000F".toList =
      '0' :: 'X' :: '0' :: (Nat.toDigits 16 (2 ^ 56) ++ ['F']) := by
    decide +kernel
  have spelled : SpellsWhole 16 ('0' :: (Nat.toDigits 16 (2 ^ 56) ++ ['F'])) (2 ^ 60 + 15) :=
    .zero_cons (by decide) (.append (.toDigits (by decide) _) ⟨by decide, .inr rfl⟩)
  have settledNumber : settled 16 (2 ^ 60 + 15) = 2 ^ 60 := by
    rw [settled_of_large (by decide) (by decide), settled_of_small (by decide)]
    rfl
  have noTie : ¬TiesDown (settled 16 (2 ^ 60 + 15)) := by
    rw [settledNumber, TiesDown]
    decide +kernel
  have agrees := (marked _ List.mem_cons_self 'X' (by decide) _ _ digits spelled).2
  exact ⟨nearest, rounds, decimal _ spelledDecimal, agrees.2 fun lost => noTie lost.2.2⟩

/-- In base 16 the last digit of this number decides about a tie, and it is lost. -/
theorem coerce_notations_differ :
    SpellsWhole 10 "144115188075855889".toList 144115188075855889 ∧
      SpellsWhole 16 "200000000000011".toList 144115188075855889 ∧
      coerce "0x200000000000011" ≠ coerce "144115188075855889" := by
  have decimalDigits : "144115188075855889".toList = Nat.toDigits 10 144115188075855889 := by
    decide +kernel
  have digits : "200000000000011".toList = Nat.toDigits 16 144115188075855889 := by
    decide +kernel
  rw [decimalDigits, digits]
  exact ⟨.toDigits (by decide) _, .toDigits (by decide) _, by decide +kernel⟩

end Value

end TableQuery
