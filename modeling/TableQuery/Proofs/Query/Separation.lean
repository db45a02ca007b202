import Mathlib.Data.List.Chain
import TableQuery.Proofs.Query.Spacing

/-!
Which gaps between tokens may be left empty. Tokens are laid out with white space of any length
around them, and the lexer gives back these tokens exactly when there is a gap wherever the next
token would otherwise become part of the one before it.
-/

namespace TableQuery

namespace Token

def isWord : Token → Bool
  | project | filter | identifier _ => true
  | _ => false

def isNumber : Token → Bool
  | number _ => true
  | _ => false

def isUnsigned : Token → Bool
  | number numeral => numeral.toList.head? != some '-'
  | _ => false

/-- The second token, written directly after the first, would become part of it. These are the only
pairs of tokens that need white space between them. -/
def merges (first second : Token) : Bool :=
  first.isWord && second.isWord ||
  first.isWord && second.isUnsigned ||
  first.isNumber && second.isUnsigned ||
  (first == .comparator .greater || first == .comparator .less) && second == .comparator .equal

/-- What the first character of a spelling tells about the token. -/
structure OpensWith (token : Token) (first : Char) : Prop where
  notWhite : isWhitespace first = false
  wordCharacter : isWordCharacter first = (token.isWord || token.isUnsigned)
  numberCharacter : (first.isDigit || first == '.') = token.isUnsigned
  equalSign : (first == '=') = (token == .comparator .equal)

end Token

theorem Token.opens_with_of_is_letter {token : Token} {first : Char}
    (letter : isLetter first = true)
    (word : token.isWord = true) : token.OpensWith first := by
  have noUnsigned : token.isUnsigned = false := by cases token <;> first | rfl | cases word
  have noSign : (token == .comparator .equal) = false := by
    cases token <;> first | rfl | cases word
  have noPoint : first ≠ '.' := ne_of_test letter (is_letter_eq_false_of_toNat_lt (by decide))
  have noEqual : first ≠ '=' := ne_of_test letter (is_letter_eq_false_of_toNat_lt (by decide))
  constructor
  · exact is_whitespace_eq_false_of_is_letter letter
  · rw [isWordCharacter, letter, word]
    rfl
  · rw [isDigit_eq_false_of_is_letter letter, noUnsigned]
    simpa using noPoint
  · rw [noSign]
    simpa using noEqual

theorem Token.opens_with_of_isDigit {numeral : String} {first : Char} {rest : List Char}
    (spelled : numeral.toList = first :: rest) (digit : first.isDigit = true) :
    (Token.number numeral).OpensWith first := by
  have noMinus : first ≠ '-' := ne_of_test digit rfl
  have noEqual : first ≠ '=' := ne_of_test digit rfl
  have unsigned : (Token.number numeral).isUnsigned = true := by
    rw [isUnsigned, spelled]
    simpa using noMinus
  have noSign : (Token.number numeral == .comparator .equal) = false := rfl
  constructor
  · exact is_whitespace_eq_false_of_isDigit digit
  · rw [isWordCharacter, digit, unsigned]
    simp
  · rw [digit, unsigned]
    rfl
  · rw [noSign]
    simpa using noEqual

theorem Token.opens_with_of_minus {numeral : String} {rest : List Char}
    (spelled : numeral.toList = '-' :: rest) : (Token.number numeral).OpensWith '-' := by
  have signed : (Token.number numeral).isUnsigned = false := by
    rw [isUnsigned, spelled]
    rfl
  exact ⟨rfl, by rw [signed]; rfl, by rw [signed]; rfl, rfl⟩

/-- The kind of a token shows in its first character, as far as it matters for the token before. So
whether two tokens merge is decided by that character. -/
theorem Token.exists_opens_with {token : Token} (wellFormed : token.WellFormed) :
    ∃ first rest, token.spelling = first :: rest ∧ token.OpensWith first := by
  cases token with
  | project => exact ⟨'P', "ROJECT".toList, rfl, opens_with_of_is_letter rfl rfl⟩
  | filter => exact ⟨'F', "ILTER".toList, rfl, opens_with_of_is_letter rfl rfl⟩
  | star => exact ⟨'*', [], rfl, rfl, rfl, rfl, rfl⟩
  | comma => exact ⟨',', [], rfl, rfl, rfl, rfl, rfl⟩
  | comparator sign =>
      cases sign with
      | equal => exact ⟨'=', [], rfl, rfl, rfl, rfl, rfl⟩
      | greater => exact ⟨'>', [], rfl, rfl, rfl, rfl, rfl⟩
      | greaterEqual => exact ⟨'>', ['='], rfl, rfl, rfl, rfl, rfl⟩
      | less => exact ⟨'<', [], rfl, rfl, rfl, rfl, rfl⟩
      | lessEqual => exact ⟨'<', ['='], rfl, rfl, rfl, rfl, rfl⟩
  | identifier name =>
      rcases wellFormed.1 with ⟨first, rest, spelled, letter, -⟩
      exact ⟨first, rest, spelled, opens_with_of_is_letter letter rfl⟩
  | number numeral =>
      rcases wellFormed with unsigned | ⟨magnitude, signed, -⟩
      · rcases exists_digit_of_is_numeral unsigned with ⟨first, rest, spelled, digit⟩
        exact ⟨first, rest, spelled, opens_with_of_isDigit spelled digit⟩
      · exact ⟨'-', magnitude, signed, opens_with_of_minus signed⟩
  | string body => exact ⟨backtick, body.toList ++ [backtick], rfl, rfl, rfl, rfl, rfl⟩

theorem Token.continues_with_eq_merges {token next : Token} {first : Char}
    (opens : next.OpensWith first) : token.continuesWith first = token.merges next := by
  cases token with
  | comparator sign =>
      cases sign <;>
        simp [continuesWith, merges, isWord, isNumber, opens.equalSign]
  | _ =>
      simp [continuesWith, merges, isWord, isNumber, opens.wordCharacter, opens.numberCharacter]

theorem is_word_character_eq_false_of_is_whitespace {character : Char}
    (white : isWhitespace character = true) : isWordCharacter character = false := by
  have noUnderscore : character ≠ '_' := ne_of_test white rfl
  rw [isWordCharacter, is_letter_eq_false_of_is_whitespace white,
    isDigit_eq_false_of_is_whitespace white]
  simpa using noUnderscore

theorem Token.continues_with_eq_false {character : Char} (white : isWhitespace character = true)
    (token : Token) : token.continuesWith character = false := by
  have noWord := is_word_character_eq_false_of_is_whitespace white
  have noDigit := isDigit_eq_false_of_is_whitespace white
  have noPoint : (character == '.') = false := beq_eq_false_iff_ne.2 (ne_of_test white rfl)
  have noEqual : (character == '=') = false := beq_eq_false_iff_ne.2 (ne_of_test white rfl)
  cases token with
  | comparator sign => cases sign <;> first | exact noEqual | rfl
  | project => exact noWord
  | filter => exact noWord
  | identifier name => exact noWord
  | number numeral => rw [continuesWith, noDigit, noPoint]; rfl
  | _ => rfl

theorem test_of_mem_head?_dropWhile {Item : Type} {test : Item → Bool} {items : List Item}
    {item : Item} (first : item ∈ (items.dropWhile test).head?) : test item = false := by
  have stop := List.head?_dropWhile_not test items
  rw [first] at stop
  exact stop

theorem leading_word_stops {text suffix : List Char} (found : leadingWord text ≠ [])
    (split : text = leadingWord text ++ suffix) :
    ∀ character ∈ suffix.head?, isWordCharacter character = false := by
  cases text with
  | nil => exact absurd rfl found
  | cons first rest =>
      rw [leadingWord] at found split
      by_cases letter : isLetter first = true
      · rw [if_pos letter] at split
        have whole := List.takeWhile_append_dropWhile (p := isWordCharacter) (l := rest)
        have tail : rest = rest.takeWhile isWordCharacter ++ suffix := List.tail_eq_of_cons_eq split
        have same : rest.dropWhile isWordCharacter = suffix :=
          List.append_cancel_left (whole.trans tail)
        intro character next
        rw [← same] at next
        exact test_of_mem_head?_dropWhile next
      · rw [if_neg letter] at found
        exact absurd rfl found

theorem exists_suffix_of_leading_unsigned {text : List Char} (found : leadingUnsigned text ≠ []) :
    ∃ suffix, text = leadingUnsigned text ++ suffix ∧
      ∀ character ∈ suffix.head?, character.isDigit = false := by
  have whole := List.takeWhile_append_dropWhile (p := Char.isDigit) (l := text)
  have stops : ∀ character ∈ (text.dropWhile Char.isDigit).head?, character.isDigit = false :=
    fun _ => test_of_mem_head?_dropWhile
  unfold leadingUnsigned at found ⊢
  dsimp only at found ⊢
  generalize text.dropWhile Char.isDigit = rest at whole stops found ⊢
  split
  · rename_i empty
    rw [if_pos empty] at found
    exact absurd rfl found
  · unfold leadingFraction
    split
    · rename_i places
      have later := List.takeWhile_append_dropWhile (p := Char.isDigit) (l := places)
      dsimp only
      split
      · exact ⟨'.' :: places, by rw [List.append_nil, whole], stops⟩
      · refine ⟨places.dropWhile Char.isDigit, ?_, fun _ => test_of_mem_head?_dropWhile⟩
        rw [List.append_assoc, List.cons_append, later, whole]
    · exact ⟨rest, by rw [List.append_nil, whole], stops⟩

theorem exists_suffix_of_leading_number {text : List Char} (found : leadingNumber text ≠ []) :
    ∃ suffix, text = leadingNumber text ++ suffix ∧
      ∀ character ∈ suffix.head?, character.isDigit = false := by
  revert found
  unfold leadingNumber
  split
  · rename_i rest
    dsimp only
    split
    · exact fun empty => absurd rfl empty
    · rename_i nonempty
      intro _
      rcases exists_suffix_of_leading_unsigned fun empty => nonempty (List.isEmpty_iff.2 empty)
        with ⟨suffix, split, stops⟩
      exact ⟨suffix, by rw [List.cons_append, ← split], stops⟩
  · exact exists_suffix_of_leading_unsigned

theorem leading_number_stops {text suffix : List Char} (found : leadingNumber text ≠ [])
    (split : text = leadingNumber text ++ suffix) :
    ∀ character ∈ suffix.head?, character.isDigit = false := by
  rcases exists_suffix_of_leading_number found with ⟨rest, same, stops⟩
  rw [List.append_cancel_left (split.symm.trans same)]
  exact stops

theorem leading_comparator_stops {text suffix : List Char} {sign : Comparator}
    (found : leadingComparator? text = some sign) (split : text = sign.spelling.toList ++ suffix) :
    (Token.comparator sign).EndsBefore suffix := by
  intro character next
  rcases List.head?_eq_some_iff.1 next with ⟨rest, rfl⟩
  subst split
  by_cases equal : character = '='
  · subst equal
    cases sign <;> first | rfl | cases found
  · have noEqual : (character == '=') = false := by simpa using equal
    cases sign <;> first | exact noEqual | rfl

theorem spelling_word_token (word : String) : (wordToken word).spelling = word.toList := by
  unfold wordToken keyword?
  split
  · rename_i same
    rw [same]
    rfl
  · split
    · rename_i same
      rw [same]
      rfl
    · rfl

theorem spelling_of_scan {first : Char} {rest : List Char} {lexeme : Lexeme}
    (scanned : scan first rest = .ok lexeme) : lexeme.spelling = lexeme.token.spelling := by
  cases scans_of_scan scanned with
  | star => rfl
  | comma => rfl
  | comparator found => rfl
  | string found => rw [Token.spelling_string, String.toList_ofList]
  | number found => rw [Token.spelling_number, String.toList_ofList]
  | word found => rw [spelling_word_token, String.toList_ofList]

theorem continues_with_word_token {word : String} {character : Char}
    (stop : isWordCharacter character = false) :
    (wordToken word).continuesWith character = false := by
  unfold wordToken keyword?
  split
  · exact stop
  · split <;> exact stop

/-- Each rule takes all that belongs to it. Only a point is left behind that might still have
belonged to a number. -/
theorem ends_before_of_scan {first : Char} {rest suffix : List Char} {lexeme : Lexeme}
    (scanned : scan first rest = .ok lexeme) (split : first :: rest = lexeme.spelling ++ suffix)
    (noPoint : suffix.head? ≠ some '.') : lexeme.token.EndsBefore suffix := by
  cases scans_of_scan scanned with
  | star => exact fun _ _ => rfl
  | comma => exact fun _ _ => rfl
  | string found => exact fun _ _ => rfl
  | comparator found => exact leading_comparator_stops found split
  | word found =>
      intro character next
      exact continues_with_word_token (leading_word_stops found split character next)
  | number found =>
      intro character next
      have noDigit := leading_number_stops found split character next
      have other : (character == '.') = false := by
        rw [beq_eq_false_iff_ne]
        rintro rfl
        exact noPoint next
      rw [Token.continuesWith, noDigit, other]
      rfl

theorem Lexer.ends_before_of_next {before spelling gap suffix : List Char} {token : Token}
    {after : Lexer} (blank : ∀ character ∈ gap, isWhitespace character = true)
    (wellFormed : token.WellFormed) (noPoint : suffix.head? ≠ some '.')
    (read : (Lexer.mk before spelling (gap ++ (token.spelling ++ suffix))).next =
      (.token token, after)) : token.EndsBefore suffix := by
  rcases token.exists_opens_with wellFormed with ⟨first, rest, spelled, opens⟩
  have stop : ∀ character ∈ (first :: (rest ++ suffix)).head?, isWhitespace character = false := by
    simpa using opens.notWhite
  have cut := span_append blank (first :: (rest ++ suffix)) stop
  rw [spelled, List.cons_append] at read
  simp only [next, cut.2] at read
  split at read
  · rename_i lexeme scanned
    cases read
    apply ends_before_of_scan scanned _ noPoint
    rw [spelling_of_scan scanned, spelled, List.cons_append]
  · cases read

structure SpacedToken where
  gap : List Char
  token : Token
  blank : ∀ character ∈ gap, isWhitespace character = true
  wellFormed : token.WellFormed

def layOut (ending : List Char) : List SpacedToken → List Char
  | [] => ending
  | piece :: rest => piece.gap ++ (piece.token.spelling ++ layOut ending rest)

/-- Tokens with white space before, between and after them. -/
structure TokenLayout where
  pieces : List SpacedToken
  ending : List Char
  blank : ∀ character ∈ ending, isWhitespace character = true

namespace TokenLayout

def tokens (layout : TokenLayout) : List Token := layout.pieces.map SpacedToken.token

def text (layout : TokenLayout) : String := String.ofList (layOut layout.ending layout.pieces)

end TokenLayout

def Separates (piece next : SpacedToken) : Prop :=
  piece.token.merges next.token = true → next.gap ≠ []

theorem head?_lay_out_cons (ending : List Char) (piece : SpacedToken) (rest : List SpacedToken) :
    ∃ first, (layOut ending (piece :: rest)).head? = some first ∧
      if piece.gap = [] then piece.token.OpensWith first else isWhitespace first = true := by
  rcases piece.token.exists_opens_with piece.wellFormed with ⟨first, tail, spelled, opens⟩
  rw [layOut]
  cases same : piece.gap with
  | nil => exact ⟨first, by rw [spelled]; rfl, by rwa [if_pos rfl]⟩
  | cons white gap =>
      have isWhite := piece.blank white (by rw [same]; exact List.mem_cons_self ..)
      exact ⟨white, rfl, by rwa [if_neg (List.cons_ne_nil _ _)]⟩

theorem is_whitespace_of_mem_head? {text : List Char} {first : Char}
    (blank : ∀ character ∈ text, isWhitespace character = true) (next : first ∈ text.head?) :
    isWhitespace first = true := blank first (List.mem_of_mem_head? next)

/-- What stands after a token lengthens it exactly when the next token merges with it. -/
theorem ends_before_lay_out_iff {ending : List Char}
    (blank : ∀ character ∈ ending, isWhitespace character = true) (piece : SpacedToken)
    (rest : List SpacedToken) :
    piece.token.EndsBefore (layOut ending rest) ↔ ∀ next ∈ rest.head?, Separates piece next := by
  cases rest with
  | nil =>
      constructor
      · intro _ next found
        cases found
      · intro _ character first
        exact piece.token.continues_with_eq_false (is_whitespace_of_mem_head? blank first)
  | cons next rest =>
      rcases head?_lay_out_cons ending next rest with ⟨first, begins, kind⟩
      have onlyFirst : piece.token.EndsBefore (layOut ending (next :: rest)) ↔
          piece.token.continuesWith first = false := by
        simp [Token.EndsBefore, begins]
      have onlyNext : (∀ other ∈ (next :: rest).head?, Separates piece other) ↔
          Separates piece next := by simp
      rw [onlyFirst, onlyNext, Separates]
      by_cases glued : next.gap = []
      · rw [if_pos glued] at kind
        rw [Token.continues_with_eq_merges kind]
        simp [glued]
      · rw [if_neg glued] at kind
        rw [Token.continues_with_eq_false kind]
        simp [glued]

theorem head?_lay_out_ne_point {ending : List Char}
    (blank : ∀ character ∈ ending, isWhitespace character = true) (pieces : List SpacedToken) :
    (layOut ending pieces).head? ≠ some '.' := by
  intro point
  cases pieces with
  | nil => cases is_whitespace_of_mem_head? blank point
  | cons piece rest =>
      rcases head?_lay_out_cons ending piece rest with ⟨first, begins, kind⟩
      cases begins.symm.trans point
      split at kind
      · have noWord : (piece.token.isWord || piece.token.isUnsigned) = false :=
          kind.wordCharacter.symm
        have isNumber : piece.token.isUnsigned = true := kind.numberCharacter.symm
        rw [isNumber, Bool.or_true] at noWord
        cases noWord
      · cases kind

theorem spells_lay_out {ending : List Char}
    (blank : ∀ character ∈ ending, isWhitespace character = true) {pieces : List SpacedToken}
    (separated : pieces.IsChain Separates) :
    Spells ending (pieces.map SpacedToken.token) (layOut ending pieces) := by
  induction pieces with
  | nil => exact .nil
  | cons piece rest induction =>
      rw [List.isChain_cons] at separated
      have ends := (ends_before_lay_out_iff blank piece rest).2 separated.1
      exact .cons piece.gap piece.token piece.blank piece.wellFormed ends
        (induction separated.2)

theorem is_chain_of_reads {ending : List Char}
    (blank : ∀ character ∈ ending, isWhitespace character = true) {pieces : List SpacedToken}
    {before spelling : List Char} {last : Lexer}
    (read : (Lexer.mk before spelling (layOut ending pieces)).Reads
      (pieces.map SpacedToken.token) last) : pieces.IsChain Separates := by
  induction pieces generalizing before spelling with
  | nil => exact .nil
  | cons piece rest induction =>
      cases read with
      | pass read later =>
          have noPoint := head?_lay_out_ne_point blank rest
          have ends := Lexer.ends_before_of_next piece.blank piece.wellFormed noPoint read
          rw [layOut, Lexer.next_of_spelling piece.blank piece.wellFormed ends] at read
          cases read
          rw [List.isChain_cons]
          exact ⟨(ends_before_lay_out_iff blank piece rest).1 ends, induction later⟩

/-- Tokens are read back from their layout, and nothing after them, exactly when no token directly
follows one that it merges with. -/
theorem TokenLayout.reads_text_iff_is_chain (layout : TokenLayout) :
    (∃ last, (Lexer.start layout.text.toList).Reads layout.tokens last ∧
      last.outcome = .endOfInput) ↔ layout.pieces.IsChain Separates := by
  rw [text, String.toList_ofList]
  constructor
  · rintro ⟨last, read, -⟩
    exact is_chain_of_reads layout.blank read
  · intro separated
    rcases (spells_lay_out layout.blank separated).exists_reads [] [] with ⟨last, read, ended⟩
    exact ⟨last, read, Lexer.outcome_of_blank (by rw [ended]; exact layout.blank)⟩

end TableQuery
