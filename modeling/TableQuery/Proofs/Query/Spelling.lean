import TableQuery.Proofs.Number.ReadBack
import TableQuery.Proofs.Query.Acceptance

/-!
Tokens and the texts that spell them. A well-formed token is read back from its spelling, whatever
white space stands before it, provided that what follows does not lengthen it; and the lexer yields
well-formed tokens only.
-/

namespace TableQuery

/-- `Letter (Letter | Digit | "_")*`. -/
def IsIdentifier (text : List Char) : Prop :=
  ∃ first rest, text = first :: rest ∧ isLetter first = true ∧
    ∀ character ∈ rest, isWordCharacter character = true

theorem is_identifier_project : IsIdentifier "PROJECT".toList :=
  ⟨'P', "ROJECT".toList, rfl, rfl, List.all_eq_true.1 (by decide)⟩

theorem is_identifier_filter : IsIdentifier "FILTER".toList :=
  ⟨'F', "ILTER".toList, rfl, rfl, List.all_eq_true.1 (by decide)⟩

def IsFieldName (name : String) : Prop :=
  IsIdentifier name.toList ∧ name ≠ "PROJECT" ∧ name ≠ "FILTER"

/-- `"-"? Digit+ ("." Digit+)?`. -/
def IsSignedNumeral (text : List Char) : Prop :=
  IsNumeral text ∨ ∃ magnitude, text = '-' :: magnitude ∧ IsNumeral magnitude

namespace Token

def spelling : Token → List Char
  | project => "PROJECT".toList
  | filter => "FILTER".toList
  | star => ['*']
  | comma => [',']
  | comparator sign => sign.spelling.toList
  | identifier name => name.toList
  | number numeral => numeral.toList
  | string body => backtick :: body.toList ++ [backtick]

@[simp] theorem spelling_number (numeral : String) :
    (number numeral).spelling = numeral.toList := rfl

@[simp] theorem spelling_string (body : String) :
    (string body).spelling = backtick :: body.toList ++ [backtick] := rfl

def WellFormed : Token → Prop
  | identifier name => IsFieldName name
  | number numeral => IsSignedNumeral numeral.toList
  | string body => backtick ∉ body.toList
  | _ => True

/-- Whether a character that follows the spelling directly would become part of it. For a number
this is a digit, or a point, which only counts if a digit follows. -/
def continuesWith : Token → Char → Bool
  | project, character | filter, character | identifier _, character => isWordCharacter character
  | number _, character => character.isDigit || character == '.'
  | comparator .greater, character | comparator .less, character => character == '='
  | _, _ => false

/-- The text that follows does not lengthen the token. -/
def EndsBefore (token : Token) (suffix : List Char) : Prop :=
  ∀ character ∈ suffix.head?, token.continuesWith character = false

end Token

theorem leading_comparator?_eq_none {first : Char}
    (plain : first ≠ '>' ∧ first ≠ '<' ∧ first ≠ '=') (rest : List Char) :
    leadingComparator? (first :: rest) = none := by
  unfold leadingComparator?
  split <;> simp_all

theorem leading_comparator?_spelling {sign : Comparator} {suffix : List Char}
    (ends : (Token.comparator sign).EndsBefore suffix) :
    leadingComparator? (sign.spelling.toList ++ suffix) = some sign := by
  have alone (first : Char) (stop : ∀ character ∈ suffix.head?, (character == '=') = false)
      (found : ∀ second rest, second ≠ '=' →
        leadingComparator? (first :: second :: rest) = leadingComparator? [first]) :
      leadingComparator? (first :: suffix) = leadingComparator? [first] := by
    cases suffix with
    | nil => rfl
    | cons second rest => exact found second rest (by simpa using stop second rfl)
  cases sign with
  | equal => rfl
  | greaterEqual => rfl
  | lessEqual => rfl
  | greater =>
      refine alone '>' ends ?_
      intro second rest other
      unfold leadingComparator?
      split <;> simp_all
  | less =>
      refine alone '<' ends ?_
      intro second rest other
      unfold leadingComparator?
      split <;> simp_all

theorem leading_unsigned_append {text suffix : List Char} (numeral : IsNumeral text)
    (ends : ∀ character ∈ suffix.head?, (character.isDigit || character == '.') = false) :
    leadingUnsigned (text ++ suffix) = text := by
  have stop : ∀ character ∈ suffix.head?, character.isDigit = false := by
    intro character first
    exact (Bool.or_eq_false_iff.1 (ends character first)).1
  cases numeral with
  | whole isWhole =>
      rcases all_digits_iff.1 isWhole with ⟨nonempty, all⟩
      have cut := span_append all suffix stop
      have noPoint : leadingFraction suffix = [] := by
        unfold leadingFraction
        split
        · exact absurd (ends '.' rfl) (by decide)
        · rfl
      simp [leadingUnsigned, cut.1, cut.2, nonempty, noPoint]
  | @fraction digits places isWhole isFraction =>
      rcases all_digits_iff.1 isWhole with ⟨nonempty, all⟩
      rcases all_digits_iff.1 isFraction with ⟨nonemptyPlaces, allPlaces⟩
      have cut := span_append all ('.' :: (places ++ suffix)) (by simp)
      have cutPlaces := span_append allPlaces suffix stop
      simp [leadingUnsigned, cut.1, cut.2, nonempty, leadingFraction, cutPlaces.1, nonemptyPlaces]

theorem leading_number_append {text suffix : List Char} (numeral : IsSignedNumeral text)
    (ends : ∀ character ∈ suffix.head?, (character.isDigit || character == '.') = false) :
    leadingNumber (text ++ suffix) = text := by
  rcases numeral with unsigned | ⟨magnitude, rfl, unsigned⟩
  · rcases exists_digit_of_is_numeral unsigned with ⟨first, rest, rfl, digit⟩
    have read := leading_unsigned_append unsigned ends
    unfold leadingNumber
    split
    · rename_i same
      cases same
      exact absurd digit (by decide)
    · exact read
  · rcases exists_digit_of_is_numeral unsigned with ⟨first, rest, rfl, -⟩
    have read := leading_unsigned_append unsigned ends
    simp [leadingNumber, List.cons_append] at read ⊢
    simp [read]

theorem leading_number_eq_nil {first : Char} (noDigit : first.isDigit = false)
    (noMinus : first ≠ '-') (rest : List Char) : leadingNumber (first :: rest) = [] := by
  unfold leadingNumber
  split
  · rename_i same
    cases same
    exact absurd rfl noMinus
  · simp [leadingUnsigned, noDigit]

theorem leading_word_append {text suffix : List Char} (identifier : IsIdentifier text)
    (ends : ∀ character ∈ suffix.head?, isWordCharacter character = false) :
    leadingWord (text ++ suffix) = text := by
  rcases identifier with ⟨first, rest, rfl, letter, all⟩
  simp [leadingWord, letter, (span_append all suffix ends).1]

theorem leading_string_body?_append {body : List Char} (plain : backtick ∉ body)
    (suffix : List Char) :
    leadingStringBody? (backtick :: body ++ [backtick] ++ suffix) = some body := by
  have all : ∀ character ∈ body, (character != backtick) = true := by
    intro character member
    rw [bne_iff_ne]
    exact fun same => plain (same ▸ member)
  have cut := span_append all (backtick :: suffix) (by simp)
  simp [leadingStringBody?, cut.1]

theorem scan_of_plain {first : Char} {rest : List Char}
    (plain : first ≠ '*' ∧ first ≠ ',' ∧ first ≠ backtick)
    (noSign : first ≠ '>' ∧ first ≠ '<' ∧ first ≠ '=') :
    scan first rest =
      match leadingNumber (first :: rest), leadingWord (first :: rest) with
      | [], [] => .error (.unexpectedCharacter first)
      | [], word => .ok ⟨wordToken (String.ofList word), word⟩
      | numeral, _ => .ok ⟨.number (String.ofList numeral), numeral⟩ := by
  have noComparator := leading_comparator?_eq_none noSign rest
  rw [scan, if_neg plain.1, if_neg plain.2.1, if_neg plain.2.2]
  generalize leadingComparator? (first :: rest) = found at noComparator ⊢
  subst noComparator
  rfl

theorem scan_of_is_letter {first : Char} (letter : isLetter first = true) (rest : List Char) :
    scan first rest =
      .ok ⟨wordToken (String.ofList (leadingWord (first :: rest))),
        leadingWord (first :: rest)⟩ := by
  have other (sign : Char) (noLetter : isLetter sign = false) : first ≠ sign := by
    intro same
    rw [same, noLetter] at letter
    cases letter
  have low (sign : Char) (bound : sign.toNat < 65) : first ≠ sign :=
    other sign (is_letter_eq_false_of_toNat_lt bound)
  have noNumber :=
    leading_number_eq_nil (isDigit_eq_false_of_is_letter letter) (low '-' (by decide))
    rest
  have word : leadingWord (first :: rest) = first :: rest.takeWhile isWordCharacter := if_pos letter
  rw [scan_of_plain ⟨low '*' (by decide), low ',' (by decide), other backtick (by decide)⟩
    ⟨low '>' (by decide), low '<' (by decide), low '=' (by decide)⟩, noNumber, word]

theorem begins_of_leading_number {first : Char} {rest : List Char}
    (found : leadingNumber (first :: rest) ≠ []) : first = '-' ∨ first.isDigit = true := by
  by_contra neither
  rw [not_or, Bool.not_eq_true] at neither
  exact found (leading_number_eq_nil neither.2 neither.1 rest)

/-- A number is read before the rule for words is tried. -/
theorem scan_of_leading_number {first : Char} {rest : List Char}
    (found : leadingNumber (first :: rest) ≠ []) :
    isWhitespace first = false ∧ scan first rest =
      .ok ⟨.number (String.ofList (leadingNumber (first :: rest))),
        leadingNumber (first :: rest)⟩ := by
  have start := begins_of_leading_number found
  have other (sign : Char) (noMinus : sign ≠ '-') (noDigit : sign.isDigit = false) :
      first ≠ sign := by
    rintro rfl
    rcases start with minus | digit
    · exact noMinus minus
    · rw [noDigit] at digit
      cases digit
  have notWhite : isWhitespace first = false := by
    rcases start with rfl | digit
    · rfl
    · exact is_whitespace_eq_false_of_isDigit digit
  refine ⟨notWhite, ?_⟩
  rw [scan_of_plain
    ⟨other '*' (by decide) rfl, other ',' (by decide) rfl, other backtick (by decide) rfl⟩
    ⟨other '>' (by decide) rfl, other '<' (by decide) rfl, other '=' (by decide) rfl⟩]
  cases same : leadingNumber (first :: rest) with
  | nil => exact absurd same found
  | cons character others => rfl

theorem scan_word {text suffix : List Char} (identifier : IsIdentifier text)
    (ends : ∀ character ∈ suffix.head?, isWordCharacter character = false) :
    ∃ first rest, text ++ suffix = first :: rest ∧ isWhitespace first = false ∧
      scan first rest = .ok ⟨wordToken (String.ofList text), text⟩ := by
  have word := leading_word_append identifier ends
  rcases identifier with ⟨first, tail, rfl, letter, -⟩
  refine ⟨first, tail ++ suffix, rfl, is_whitespace_eq_false_of_is_letter letter, ?_⟩
  rw [scan_of_is_letter letter, ← List.cons_append, word]

theorem exists_cons_of_is_signed_numeral {text : List Char} (numeral : IsSignedNumeral text) :
    ∃ first rest, text = first :: rest := by
  rcases numeral with unsigned | ⟨magnitude, rfl, -⟩
  · rcases exists_digit_of_is_numeral unsigned with ⟨first, rest, same, -⟩
    exact ⟨first, rest, same⟩
  · exact ⟨'-', magnitude, rfl⟩

theorem scan_number {text suffix : List Char} (numeral : IsSignedNumeral text)
    (ends : ∀ character ∈ suffix.head?, (character.isDigit || character == '.') = false) :
    ∃ first rest, text ++ suffix = first :: rest ∧ isWhitespace first = false ∧
      scan first rest = .ok ⟨.number (String.ofList text), text⟩ := by
  have number := leading_number_append numeral ends
  rcases exists_cons_of_is_signed_numeral numeral with ⟨first, tail, rfl⟩
  rw [List.cons_append] at number
  have found : leadingNumber (first :: (tail ++ suffix)) ≠ [] := by
    rw [number]
    exact List.cons_ne_nil _ _
  have scanned := scan_of_leading_number found
  rw [number] at scanned
  exact ⟨first, tail ++ suffix, rfl, scanned⟩

theorem scan_string {body : List Char} (plain : backtick ∉ body) (suffix : List Char) :
    scan backtick (body ++ [backtick] ++ suffix) =
      .ok ⟨.string (String.ofList body), backtick :: body ++ [backtick]⟩ := by
  have found := leading_string_body?_append plain suffix
  simp only [List.cons_append] at found
  rw [scan, if_neg (by decide), if_neg (by decide), if_pos rfl]
  simp only [found]

theorem begins_of_leading_comparator {first : Char} {rest : List Char} {sign : Comparator}
    (found : leadingComparator? (first :: rest) = some sign) :
    first = '>' ∨ first = '<' ∨ first = '=' := by
  by_contra noSign
  rw [not_or, not_or] at noSign
  rw [leading_comparator?_eq_none noSign rest] at found
  cases found

theorem scan_of_leading_comparator {first : Char} {rest : List Char} {sign : Comparator}
    (found : leadingComparator? (first :: rest) = some sign) :
    isWhitespace first = false ∧
      scan first rest = .ok ⟨.comparator sign, sign.spelling.toList⟩ := by
  have start := begins_of_leading_comparator found
  constructor
  · rcases start with rfl | rfl | rfl <;> rfl
  · rw [scan, if_neg, if_neg, if_neg]
    · simp only [found]
    all_goals rcases start with rfl | rfl | rfl <;> decide

theorem exists_cons_spelling (sign : Comparator) :
    ∃ first rest, sign.spelling.toList = first :: rest := by
  cases sign
  · exact ⟨'=', [], rfl⟩
  · exact ⟨'>', [], rfl⟩
  · exact ⟨'>', ['='], rfl⟩
  · exact ⟨'<', [], rfl⟩
  · exact ⟨'<', ['='], rfl⟩

theorem scan_comparator {sign : Comparator} {suffix : List Char}
    (ends : (Token.comparator sign).EndsBefore suffix) :
    ∃ first rest, sign.spelling.toList ++ suffix = first :: rest ∧ isWhitespace first = false ∧
      scan first rest = .ok ⟨.comparator sign, sign.spelling.toList⟩ := by
  have found := leading_comparator?_spelling ends
  rcases exists_cons_spelling sign with ⟨first, rest, spelled⟩
  rw [spelled, List.cons_append] at found ⊢
  have scanned := scan_of_leading_comparator found
  rw [spelled] at scanned
  exact ⟨first, rest ++ suffix, rfl, scanned⟩

theorem word_token_of_is_field_name {name : String} (field : IsFieldName name) :
    wordToken name = .identifier name := by
  rw [wordToken, keyword?, if_neg field.2.1, if_neg field.2.2]
  rfl

/-- A well-formed token is read from its spelling. -/
theorem scan_spelling {token : Token} {suffix : List Char} (wellFormed : token.WellFormed)
    (ends : token.EndsBefore suffix) :
    ∃ first rest, token.spelling ++ suffix = first :: rest ∧ isWhitespace first = false ∧
      scan first rest = .ok ⟨token, token.spelling⟩ := by
  cases token with
  | star => exact ⟨'*', suffix, rfl, rfl, rfl⟩
  | comma => exact ⟨',', suffix, rfl, rfl, rfl⟩
  | comparator sign => exact scan_comparator ends
  | project => exact scan_word is_identifier_project ends
  | filter => exact scan_word is_identifier_filter ends
  | identifier name =>
      rcases scan_word wellFormed.1 ends with ⟨first, rest, same, notWhite, scanned⟩
      rw [String.ofList_toList, word_token_of_is_field_name wellFormed] at scanned
      exact ⟨first, rest, same, notWhite, scanned⟩
  | number numeral =>
      rcases scan_number wellFormed ends with ⟨first, rest, same, notWhite, scanned⟩
      rw [String.ofList_toList] at scanned
      exact ⟨first, rest, same, notWhite, scanned⟩
  | string body =>
      have scanned := scan_string wellFormed suffix
      rw [String.ofList_toList] at scanned
      exact ⟨backtick, body.toList ++ [backtick] ++ suffix, rfl, rfl, scanned⟩

theorem is_numeral_leading_unsigned {text : List Char} (found : leadingUnsigned text ≠ []) :
    IsNumeral (leadingUnsigned text) := by
  unfold leadingUnsigned at found ⊢
  dsimp only at found ⊢
  split
  · rename_i empty
    rw [if_pos empty] at found
    exact absurd rfl found
  · rename_i nonempty
    have isWhole := all_digits_takeWhile (fun empty => nonempty (List.isEmpty_iff.2 empty))
    unfold leadingFraction
    split
    · dsimp only
      split
      · rw [List.append_nil]
        exact .whole isWhole
      · rename_i someFraction
        exact .fraction isWhole
          (all_digits_takeWhile fun empty => someFraction (List.isEmpty_iff.2 empty))
    · rw [List.append_nil]
      exact .whole isWhole

theorem is_signed_numeral_leading_number {text : List Char} (found : leadingNumber text ≠ []) :
    IsSignedNumeral (leadingNumber text) := by
  revert found
  unfold leadingNumber
  split
  · dsimp only
    split
    · exact fun found => absurd rfl found
    · rename_i nonempty
      intro _
      exact .inr ⟨_, rfl,
        is_numeral_leading_unsigned fun empty => nonempty (List.isEmpty_iff.2 empty)⟩
  · exact fun found => .inl (is_numeral_leading_unsigned found)

theorem is_identifier_leading_word {text : List Char} (found : leadingWord text ≠ []) :
    IsIdentifier (leadingWord text) := by
  cases text with
  | nil => exact absurd rfl found
  | cons first rest =>
      rw [leadingWord] at found ⊢
      by_cases letter : isLetter first = true
      · rw [if_pos letter]
        exact ⟨first, _, rfl, letter, fun _ => test_of_mem_takeWhile⟩
      · rw [if_neg letter] at found
        exact absurd rfl found

theorem well_formed_word_token {word : String} (identifier : IsIdentifier word.toList) :
    (wordToken word).WellFormed := by
  unfold wordToken keyword?
  split
  · trivial
  · rename_i noProject
    split
    · trivial
    · rename_i noFilter
      exact ⟨identifier, noProject, noFilter⟩

/-- The rules of the lexer, each with what it finds at the start of the text. A proof about every
token has one case for each rule, and never opens the lexer itself. -/
inductive Scans (text : List Char) : Lexeme → Prop
  | star : Scans text ⟨.star, ['*']⟩
  | comma : Scans text ⟨.comma, [',']⟩
  | string {body : List Char} (found : leadingStringBody? text = some body) :
      Scans text ⟨.string (String.ofList body), backtick :: body ++ [backtick]⟩
  | comparator {sign : Comparator} (found : leadingComparator? text = some sign) :
      Scans text ⟨.comparator sign, sign.spelling.toList⟩
  | number (found : leadingNumber text ≠ []) :
      Scans text ⟨.number (String.ofList (leadingNumber text)), leadingNumber text⟩
  | word (found : leadingWord text ≠ []) :
      Scans text ⟨wordToken (String.ofList (leadingWord text)), leadingWord text⟩

theorem scans_of_scan {first : Char} {rest : List Char} {lexeme : Lexeme}
    (scanned : scan first rest = .ok lexeme) : Scans (first :: rest) lexeme := by
  unfold scan at scanned
  dsimp only at scanned
  split at scanned
  · cases scanned
    exact .star
  split at scanned
  · cases scanned
    exact .comma
  split at scanned
  · split at scanned
    · rename_i found
      cases scanned
      exact .string found
    · cases scanned
  split at scanned
  · rename_i found
    cases scanned
    exact .comparator found
  · split at scanned
    · cases scanned
    · rename_i someWord
      cases scanned
      exact .word someWord
    · rename_i someNumber _
      cases scanned
      exact .number someNumber

theorem backtick_not_mem_leading_string_body {text body : List Char}
    (found : leadingStringBody? text = some body) : backtick ∉ body := by
  unfold leadingStringBody? at found
  split at found
  · cases found
  · split at found
    · cases found
      intro member
      simpa using test_of_mem_takeWhile member
    · cases found

theorem well_formed_of_scan {first : Char} {rest : List Char} {lexeme : Lexeme}
    (scanned : scan first rest = .ok lexeme) : lexeme.token.WellFormed := by
  cases scans_of_scan scanned with
  | star => trivial
  | comma => trivial
  | comparator found => trivial
  | string found =>
      rw [Token.WellFormed, String.toList_ofList]
      exact backtick_not_mem_leading_string_body found
  | number found =>
      rw [Token.WellFormed, String.toList_ofList]
      exact is_signed_numeral_leading_number found
  | word found =>
      apply well_formed_word_token
      rw [String.toList_ofList]
      exact is_identifier_leading_word found

end TableQuery
