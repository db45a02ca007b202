import TableQuery.Text.CharacterClass

/-!
How the character classes lie to each other: white space, digits and letters have no character in
common. A run of one class therefore ends where a character of another class stands.
-/

namespace TableQuery

theorem span_append {Item : Type} {test : Item → Bool} {front : List Item}
    (all : ∀ item ∈ front, test item = true) (rest : List Item)
    (stop : ∀ item ∈ rest.head?, test item = false) :
    (front ++ rest).takeWhile test = front ∧ (front ++ rest).dropWhile test = rest := by
  rw [List.takeWhile_append_of_pos all, List.dropWhile_append_of_pos all]
  cases rest with
  | nil => simp
  | cons first others => simp [stop first rfl]

theorem test_of_mem_takeWhile {Item : Type} {test : Item → Bool} {items : List Item} {item : Item}
    (member : item ∈ items.takeWhile test) : test item = true :=
  List.all_eq_true.1 List.all_takeWhile item member

theorem ne_of_test {test : Char → Bool} {character other : Char} (inside : test character = true)
    (outside : test other = false) : character ≠ other := by
  rintro rfl
  rw [outside] at inside
  cases inside

theorem toNat_of_isDigit {character : Char} (digit : character.isDigit = true) :
    48 ≤ character.toNat ∧ character.toNat ≤ 57 := by
  simp only [Char.isDigit, Bool.and_eq_true, decide_eq_true_eq] at digit
  exact ⟨UInt32.le_iff_toNat_le.1 digit.1, UInt32.le_iff_toNat_le.1 digit.2⟩

/-- Between the space and the first control character of Latin-1 there is no white space. -/
theorem toNat_of_is_whitespace {character : Char} (white : isWhitespace character = true) :
    character.toNat ≤ 32 ∨ 133 ≤ character.toNat := by
  rcases exists_range_of_in_ascending_ranges white with ⟨range, member, lower, upper⟩
  have outside : ∀ range ∈ whitespaceRanges, range.2 ≤ 32 ∨ 133 ≤ range.1 := by decide
  have := outside range member
  omega

theorem is_letter_eq_false_of_toNat_lt {character : Char} (low : character.toNat < 65) :
    isLetter character = false := by
  have first : inAscendingRanges character.toNat letterRanges = false := by
    rw [letterRanges, inAscendingRanges, if_pos low]
  exact first

theorem is_letter_eq_false_of_isDigit {character : Char} (digit : character.isDigit = true) :
    isLetter character = false := by
  have bounds := toNat_of_isDigit digit
  exact is_letter_eq_false_of_toNat_lt (by omega)

theorem is_whitespace_eq_false_of_isDigit {character : Char} (digit : character.isDigit = true) :
    isWhitespace character = false := by
  rw [Bool.eq_false_iff]
  intro white
  have bounds := toNat_of_isDigit digit
  have outside := toNat_of_is_whitespace white
  omega

theorem isDigit_eq_false_of_is_whitespace {character : Char}
    (white : isWhitespace character = true) : character.isDigit = false := by
  rw [Bool.eq_false_iff]
  intro digit
  rw [is_whitespace_eq_false_of_isDigit digit] at white
  cases white

/-- White space has 25 characters, each of which is looked up among the letters, as no bound on code
points tells the two classes apart. -/
theorem is_letter_eq_false_of_is_whitespace {character : Char}
    (white : isWhitespace character = true) : isLetter character = false := by
  rcases exists_range_of_in_ascending_ranges white with ⟨range, member, lower, upper⟩
  have apart : ∀ range ∈ whitespaceRanges,
      ∀ codePoint ∈ List.range' range.1 (range.2 + 1 - range.1),
        inAscendingRanges codePoint letterRanges = false := by decide +kernel
  apply apart range member
  rw [List.mem_range'_1]
  omega

theorem is_whitespace_eq_false_of_is_letter {character : Char}
    (letter : isLetter character = true) :
    isWhitespace character = false := by
  rw [Bool.eq_false_iff]
  intro white
  rw [is_letter_eq_false_of_is_whitespace white] at letter
  cases letter

theorem isDigit_eq_false_of_is_letter {character : Char} (letter : isLetter character = true) :
    character.isDigit = false := by
  rw [Bool.eq_false_iff]
  intro digit
  rw [is_letter_eq_false_of_isDigit digit] at letter
  cases letter

end TableQuery
