import TableQuery.Value
import TableQuery.Proofs.Number.DecimalText

/-!
The texts that are read as numbers: decimals and the word for infinity, each with an optional sign,
and unsigned numerals in base 16, 8 or 2. White space around a number is cut off before it is read.
-/

namespace TableQuery

structure RadixRule where
  radix : Nat
  marks : List Char
  digits : List Char

def radixRules : List RadixRule :=
  [⟨16, ['x', 'X'], "0123456789abcdefABCDEF".toList⟩, ⟨8, ['o', 'O'], "01234567".toList⟩,
    ⟨2, ['b', 'B'], "01".toList⟩]

/-- `"0" Mark Digit+`, where the mark says which digits there are. -/
inductive IsRadixNumeral : List Char → Prop
  | numeral {rule : RadixRule} {mark : Char} {digits : List Char} (known : rule ∈ radixRules)
      (isMark : mark ∈ rule.marks) (nonempty : digits ≠ [])
      (isDigits : ∀ digit ∈ digits, digit ∈ rule.digits) : IsRadixNumeral ('0' :: mark :: digits)

inductive IsNumberText : List Char → Prop
  | decimal {sign unsigned : List Char} {negative : Bool} {exact : ℚ}
      (isSign : SpellsSign sign negative) (isDecimal : SpellsDecimal unsigned exact) :
      IsNumberText (sign ++ unsigned)
  | infinity {sign : List Char} {negative : Bool} (isSign : SpellsSign sign negative) :
      IsNumberText (sign ++ "Infinity".toList)
  | radix {text : List Char} (isNumeral : IsRadixNumeral text) : IsNumberText text

theorem digit_value?_eq_none {radix : Nat} {character : Char} (beyond : 128 ≤ character.toNat) :
    digitValue? radix character = none := by
  simp only [digitValue?]
  rw [if_neg (by omega), if_neg (by omega), if_neg (by omega)]
  rfl

/-- The digits of a rule have a value in its base, and no other character has. All of ASCII is
looked up. -/
theorem isSome_digit_value?_iff {rule : RadixRule} (known : rule ∈ radixRules) (character : Char) :
    (digitValue? rule.radix character).isSome ↔ character ∈ rule.digits := by
  have same : ∀ rule ∈ radixRules, ∀ code : Fin 128,
      (digitValue? rule.radix (Char.ofNat code)).isSome =
        rule.digits.contains (Char.ofNat code) := by
    decide +kernel
  have ascii : ∀ rule ∈ radixRules, rule.digits.all (fun digit => digit.toNat < 128) := by decide
  by_cases low : character.toNat < 128
  · have found := same rule known ⟨character.toNat, low⟩
    rw [Char.ofNat_toNat] at found
    rw [found, List.contains_iff_mem]
  · rw [digit_value?_eq_none (Nat.le_of_not_lt low)]
    constructor
    · intro found
      cases found
    · intro member
      have allLow := List.all_eq_true.1 (ascii rule known)
      exact absurd (of_decide_eq_true (allLow character member)) low

theorem isSome_mapM_iff {Item Result : Type} {read : Item → Option Result} {items : List Item} :
    (items.mapM read).isSome ↔ ∀ item ∈ items, (read item).isSome := by
  induction items with
  | nil => simp
  | cons first rest induction =>
      rw [List.mapM_cons, List.forall_mem_cons, ← induction]
      cases read first <;> cases rest.mapM read <;> simp

theorem radix_of_mark?_eq_some_iff {mark : Char} {radix : Nat} :
    radixOfMark? mark = some radix ↔
      ∃ rule ∈ radixRules, mark ∈ rule.marks ∧ rule.radix = radix := by
  have marked : ∀ rule ∈ radixRules,
      rule.marks.all (fun mark => radixOfMark? mark = some rule.radix) := by decide
  constructor
  · intro base
    unfold radixOfMark? at base
    split at base <;> cases base <;> decide
  · rintro ⟨rule, known, isMark, rfl⟩
    exact of_decide_eq_true (List.all_eq_true.1 (marked rule known) mark isMark)

theorem isSome_read_radix_numeral?_of_mark {rule : RadixRule} (known : rule ∈ radixRules)
    {mark : Char} (base : radixOfMark? mark = some rule.radix) (numeral : List Char) :
    (readRadixNumeral? ('0' :: mark :: numeral)).isSome ↔
      numeral ≠ [] ∧ ∀ digit ∈ numeral, digit ∈ rule.digits := by
  have readable : (numeral.mapM (digitValue? rule.radix)).isSome ↔
      ∀ digit ∈ numeral, digit ∈ rule.digits := by
    rw [isSome_mapM_iff]
    exact forall₂_congr fun character _ => isSome_digit_value?_iff known character
  rw [← readable, readRadixNumeral?, base]
  cases numeral with
  | nil => simp
  | cons first rest =>
      rw [List.mapM_cons]
      cases head : digitValue? rule.radix first <;>
        cases tail : rest.mapM (digitValue? rule.radix) <;> simp [head, tail]

theorem isSome_read_radix_numeral?_iff {text : List Char} :
    (readRadixNumeral? text).isSome ↔ IsRadixNumeral text := by
  constructor
  · intro found
    have whole := found
    unfold readRadixNumeral? at found
    split at found
    · rename_i mark numeral
      obtain ⟨double, found⟩ := Option.isSome_iff_exists.1 found
      obtain ⟨radix, base, -⟩ := Option.bind_eq_some_iff.1 found
      obtain ⟨rule, known, isMark, rfl⟩ := radix_of_mark?_eq_some_iff.1 base
      have digits := (isSome_read_radix_numeral?_of_mark known base numeral).1 whole
      exact .numeral known isMark digits.1 digits.2
    · cases found
  · intro isNumeral
    cases isNumeral with
    | numeral known isMark nonempty isDigits =>
        have base := radix_of_mark?_eq_some_iff.2 ⟨_, known, isMark, rfl⟩
        exact (isSome_read_radix_numeral?_of_mark known base _).2 ⟨nonempty, isDigits⟩

theorem SpellsDecimal.exists_head {text : List Char} {exact : ℚ}
    (spelled : SpellsDecimal text exact) :
    ∃ first rest, text = first :: rest ∧ (first.isDigit = true ∨ first = '.') := by
  obtain ⟨isSignificand, -⟩ := spelled
  cases isSignificand with
  | whole isWhole =>
      obtain ⟨first, rest, rfl, digit, -⟩ := exists_cons_of_all_digits isWhole
      exact ⟨first, _, rfl, .inl digit⟩
  | pointed isWhole isFraction =>
      obtain ⟨first, rest, rfl, digit, -⟩ := exists_cons_of_all_digits isWhole
      exact ⟨first, _, rfl, .inl digit⟩
  | fraction isFraction => exact ⟨'.', _, rfl, .inr rfl⟩

theorem SpellsDecimal.head?_ne {text : List Char} {exact : ℚ} (spelled : SpellsDecimal text exact)
    {other : Char} (noDigit : other.isDigit = false) (noPoint : other ≠ '.') :
    text.head? ≠ some other := by
  obtain ⟨first, rest, rfl, digit | rfl⟩ := spelled.exists_head
  · intro same
    exact ne_of_test digit noDigit (Option.some.inj same)
  · intro same
    exact noPoint (Option.some.inj same).symm

theorem read_number?_decimal {sign unsigned : List Char} {negative : Bool} {exact : ℚ}
    (isSign : SpellsSign sign negative) (spelled : SpellsDecimal unsigned exact) :
    ∃ double, readNumber? (sign ++ unsigned) = some double ∧
      Binary64.Rounds negative exact double := by
  obtain ⟨decimal, read, rfl⟩ := Decimal.exists_read?_of_spells_decimal spelled
  have split := split_sign_append isSign (spelled.head?_ne rfl (by decide))
    (spelled.head?_ne rfl (by decide))
  have noLetter : unsigned.head? ≠ some 'I' := spelled.head?_ne rfl (by decide)
  have noWord : unsigned ≠ "Infinity".toList := by
    rintro rfl
    exact noLetter rfl
  refine ⟨decimal.toBinary64 negative, ?_, decimal.rounds_to_binary64 negative⟩
  simp only [readNumber?, split, if_neg noWord, read]

theorem read_number?_infinity {sign : List Char} {negative : Bool}
    (isSign : SpellsSign sign negative) :
    readNumber? (sign ++ "Infinity".toList) = some (.infinite negative) := by
  have split : splitSign (sign ++ "Infinity".toList) = (negative, "Infinity".toList) :=
    split_sign_append isSign (by decide) (by decide)
  simp only [readNumber?, split]
  rfl

/-- A numeral begins with a digit, so only a minus sign in front of it is read apart. -/
theorem read_number?_with_sign {digits : List Char} {decimal : Decimal}
    (read : Decimal.read? digits = some decimal) (numeral : IsNumeral digits) (negative : Bool) :
    readNumber? (withSign negative digits) = some (decimal.toBinary64 negative) := by
  obtain ⟨first, rest, rfl, digit⟩ := exists_digit_of_is_numeral numeral
  have split : splitSign (withSign negative (first :: rest)) = (negative, first :: rest) := by
    cases negative with
    | true => rfl
    | false => exact split_sign_of_isDigit digit rest
  have noWord : first :: rest ≠ "Infinity".toList := by
    intro same
    rw [(List.cons.inj same).1] at digit
    exact absurd digit (by decide)
  simp only [readNumber?, split, if_neg noWord, read]

theorem isSome_read_number?_of_is_radix_numeral {text : List Char}
    (isNumeral : IsRadixNumeral text) :
    (readNumber? text).isSome := by
  have found := isSome_read_radix_numeral?_iff.2 isNumeral
  unfold readNumber?
  dsimp only
  split
  · rfl
  · split
    · rfl
    · exact found

/-- Every text of the grammar is read as a number, and no other text is. What the number is, is said
apart for each form. -/
theorem isSome_read_number?_iff {text : List Char} :
    (readNumber? text).isSome ↔ IsNumberText text := by
  constructor
  · intro found
    obtain ⟨sign, isSign, split⟩ := exists_sign text
    unfold readNumber? at found
    dsimp only at found
    split at found
    · rename_i word
      rw [split, word]
      exact .infinity isSign
    · split at found
      · rename_i decimal read
        rw [split]
        exact .decimal isSign (Decimal.spells_decimal_of_read? read)
      · exact .radix (isSome_read_radix_numeral?_iff.1 found)
  · intro isNumber
    cases isNumber with
    | decimal isSign isDecimal =>
        obtain ⟨double, read, -⟩ := read_number?_decimal isSign isDecimal
        rw [read]
        rfl
    | infinity isSign =>
        rw [read_number?_infinity isSign]
        rfl
    | radix isNumeral => exact isSome_read_number?_of_is_radix_numeral isNumeral

namespace Binary64

theorem of_quotient_ne_nan (negative : Bool) (numerator denominator : Nat) :
    ofQuotient negative numerator denominator ≠ .nan := by
  intro isNan
  unfold ofQuotient at isNan
  split at isNan <;> cases isNan

theorem append_digit_ne_nan (radix digit : Nat) {double : Binary64} (number : double ≠ .nan) :
    double.appendDigit radix digit ≠ .nan := by
  cases double with
  | nan => exact number
  | infinite negative => exact number
  | finite negative magnitude => exact of_quotient_ne_nan negative _ 1

/-- Appending a digit to a number leaves a number, so a whole numeral does. -/
theorem of_radix_digits_ne_nan (radix : Nat) (digits : List Nat) :
    ofRadixDigits radix digits ≠ .nan := by
  have kept : ∀ double : Binary64, double ≠ .nan →
      digits.foldl (fun number digit => number.appendDigit radix digit) double ≠ .nan := by
    induction digits with
    | nil => exact fun _ number => number
    | cons digit rest induction =>
        intro double number
        exact induction _ (append_digit_ne_nan radix digit number)
  apply kept
  intro isNan
  cases isNan

end Binary64

theorem read_radix_numeral?_ne_nan (text : List Char) : readRadixNumeral? text ≠ some .nan := by
  intro isNan
  unfold readRadixNumeral? at isNan
  split at isNan
  · obtain ⟨radix, -, isNan⟩ := Option.bind_eq_some_iff.1 isNan
    obtain ⟨digits, -, isNan⟩ := Option.bind_eq_some_iff.1 isNan
    split at isNan
    · cases isNan
    · exact Binary64.of_radix_digits_ne_nan radix digits (Option.some.inj isNan)
  · cases isNan

theorem read_number?_ne_nan (text : List Char) : readNumber? text ≠ some .nan := by
  intro isNan
  unfold readNumber? at isNan
  dsimp only at isNan
  split at isNan
  · cases isNan
  · split at isNan
    · rename_i decimal _
      exact decimal.to_binary64_ne_nan _ (Option.some.inj isNan)
    · exact read_radix_numeral?_ne_nan text isNan

end TableQuery
