import TableQuery.Proofs.Query.Separation

/-!
The lexer takes the longest token at every place. The rules of the language say which texts are
tokens; no beginning of what is left that belongs to a rule is longer than what the lexer takes, and
where it stops there is none. So calling the lexer again and again divides a text into tokens and
the white space between them, up to a rest where it stays.
-/

namespace TableQuery

/-- The lexical rules, each with the token that its texts stand for. A word is a keyword when it is
spelled like one, and an identifier otherwise. -/
inductive IsLexeme : List Char → Token → Prop
  | star : IsLexeme ['*'] .star
  | comma : IsLexeme [','] .comma
  | comparator (sign : Comparator) : IsLexeme sign.spelling.toList (.comparator sign)
  | number {text : List Char} (isNumeral : IsSignedNumeral text) :
      IsLexeme text (.number (String.ofList text))
  | string {body : List Char} (plain : backtick ∉ body) :
      IsLexeme (backtick :: body ++ [backtick]) (.string (String.ofList body))
  | project : IsLexeme "PROJECT".toList .project
  | filter : IsLexeme "FILTER".toList .filter
  | identifier {text : List Char} (isIdentifier : IsIdentifier text)
      (noProject : text ≠ "PROJECT".toList) (noFilter : text ≠ "FILTER".toList) :
      IsLexeme text (.identifier (String.ofList text))

theorem is_field_name_of_list {text : List Char} (isIdentifier : IsIdentifier text)
    (noProject : text ≠ "PROJECT".toList) (noFilter : text ≠ "FILTER".toList) :
    IsFieldName (String.ofList text) := by
  have spelled : (String.ofList text).toList = text := String.toList_ofList
  refine ⟨?_, ?_, ?_⟩
  · rw [spelled]
    exact isIdentifier
  · intro same
    rw [same] at spelled
    exact noProject spelled.symm
  · intro same
    rw [same] at spelled
    exact noFilter spelled.symm

theorem is_lexeme_iff {text : List Char} {token : Token} :
    IsLexeme text token ↔ token.WellFormed ∧ token.spelling = text := by
  constructor
  · intro belongs
    cases belongs with
    | star => exact ⟨trivial, rfl⟩
    | comma => exact ⟨trivial, rfl⟩
    | comparator sign => exact ⟨trivial, rfl⟩
    | project => exact ⟨trivial, rfl⟩
    | filter => exact ⟨trivial, rfl⟩
    | number isNumeral =>
        rw [Token.WellFormed, Token.spelling_number, String.toList_ofList]
        exact ⟨isNumeral, rfl⟩
    | string plain =>
        rw [Token.WellFormed, Token.spelling_string, String.toList_ofList]
        exact ⟨plain, rfl⟩
    | identifier isIdentifier noProject noFilter =>
        exact ⟨is_field_name_of_list isIdentifier noProject noFilter, String.toList_ofList⟩
  · rintro ⟨wellFormed, rfl⟩
    cases token with
    | star => exact .star
    | comma => exact .comma
    | comparator sign => exact .comparator sign
    | project => exact .project
    | filter => exact .filter
    | number numeral =>
        have belongs := IsLexeme.number wellFormed
        rwa [String.ofList_toList] at belongs
    | string body =>
        have belongs := IsLexeme.string wellFormed
        rwa [String.ofList_toList] at belongs
    | identifier name =>
        have noProject : name.toList ≠ "PROJECT".toList := fun same =>
          wellFormed.2.1 (String.toList_inj.1 same)
        have noFilter : name.toList ≠ "FILTER".toList := fun same =>
          wellFormed.2.2 (String.toList_inj.1 same)
        have belongs := IsLexeme.identifier wellFormed.1 noProject noFilter
        rwa [String.ofList_toList] at belongs

theorem IsLexeme.unique {text : List Char} {token other : Token} (belongs : IsLexeme text token)
    (again : IsLexeme text other) : token = other := by
  obtain ⟨wellFormed, spelled⟩ := is_lexeme_iff.1 belongs
  obtain ⟨otherWellFormed, otherSpelled⟩ := is_lexeme_iff.1 again
  have noSuffix (kind : Token) : kind.EndsBefore [] := fun _ found => by cases found
  obtain ⟨first, rest, begins, -, scanned⟩ := scan_spelling wellFormed (noSuffix token)
  obtain ⟨otherFirst, otherRest, otherBegins, -, otherScanned⟩ :=
    scan_spelling otherWellFormed (noSuffix other)
  rw [spelled] at begins
  rw [otherSpelled] at otherBegins
  cases begins.symm.trans otherBegins
  cases scanned.symm.trans otherScanned
  rfl

theorem prefix_takeWhile_append {Item : Type} {test : Item → Bool} {front : List Item}
    (all : ∀ item ∈ front, test item = true) (back : List Item) :
    front <+: (front ++ back).takeWhile test := by
  rw [List.takeWhile_append_of_pos all]
  exact List.prefix_append _ _

theorem prefix_leading_unsigned {text : List Char} (numeral : IsNumeral text) (suffix : List Char) :
    text <+: leadingUnsigned (text ++ suffix) := by
  cases numeral with
  | whole isWhole =>
      obtain ⟨nonempty, all⟩ := all_digits_iff.1 isWhole
      have taken := prefix_takeWhile_append all suffix
      have found : ((text ++ suffix).takeWhile Char.isDigit).isEmpty = false := by
        rw [List.isEmpty_eq_false_iff]
        exact List.IsPrefix.ne_nil taken nonempty
      rw [leadingUnsigned]
      simp only [found, Bool.false_eq_true, if_false]
      exact taken.trans (List.prefix_append _ _)
  | @fraction digits places isWhole isFraction =>
      obtain ⟨nonempty, all⟩ := all_digits_iff.1 isWhole
      obtain ⟨nonemptyPlaces, allPlaces⟩ := all_digits_iff.1 isFraction
      have cut := span_append all ('.' :: (places ++ suffix)) (by simp)
      have taken := prefix_takeWhile_append allPlaces suffix
      have found : ((places ++ suffix).takeWhile Char.isDigit).isEmpty = false := by
        rw [List.isEmpty_eq_false_iff]
        exact List.IsPrefix.ne_nil taken nonemptyPlaces
      rw [List.append_assoc, List.cons_append, leadingUnsigned, cut.1, cut.2, leadingFraction]
      simp only [found, List.isEmpty_eq_false_iff.2 nonempty, Bool.false_eq_true, if_false]
      rw [List.prefix_append_right_inj, List.prefix_cons_inj]
      exact taken

theorem prefix_leading_number {text : List Char} (numeral : IsSignedNumeral text)
    (suffix : List Char) : text <+: leadingNumber (text ++ suffix) := by
  rcases numeral with unsigned | ⟨digits, rfl, unsigned⟩
  · have taken := prefix_leading_unsigned unsigned suffix
    rcases exists_digit_of_is_numeral unsigned with ⟨first, rest, rfl, digit⟩
    unfold leadingNumber
    split
    · rename_i same
      cases same
      exact absurd digit (by decide)
    · exact taken
  · have taken := prefix_leading_unsigned unsigned suffix
    rcases exists_digit_of_is_numeral unsigned with ⟨first, rest, rfl, -⟩
    have found : (leadingUnsigned (first :: rest ++ suffix)).isEmpty = false := by
      rw [List.isEmpty_eq_false_iff]
      exact List.IsPrefix.ne_nil taken (List.cons_ne_nil _ _)
    rw [List.cons_append, leadingNumber]
    simp only [found, Bool.false_eq_true, if_false]
    exact (List.prefix_cons_inj _).2 taken

theorem prefix_leading_word {text : List Char} (identifier : IsIdentifier text)
    (suffix : List Char) : text <+: leadingWord (text ++ suffix) := by
  obtain ⟨first, rest, rfl, letter, all⟩ := identifier
  rw [List.cons_append, leadingWord, if_pos letter, List.prefix_cons_inj]
  exact prefix_takeWhile_append all suffix

theorem scan_covers_word {text : List Char} (identifier : IsIdentifier text) (suffix : List Char) :
    ∃ first rest lexeme, text ++ suffix = first :: rest ∧ isWhitespace first = false ∧
      scan first rest = .ok lexeme ∧ text.length ≤ lexeme.spelling.length := by
  have taken := prefix_leading_word identifier suffix
  obtain ⟨first, rest, rfl, letter, -⟩ := identifier
  exact ⟨first, rest ++ suffix, _, rfl, is_whitespace_eq_false_of_is_letter letter,
    scan_of_is_letter letter _, taken.length_le⟩

theorem scan_covers_number {text : List Char} (numeral : IsSignedNumeral text)
    (suffix : List Char) :
    ∃ first rest lexeme, text ++ suffix = first :: rest ∧ isWhitespace first = false ∧
      scan first rest = .ok lexeme ∧ text.length ≤ lexeme.spelling.length := by
  have taken := prefix_leading_number numeral suffix
  obtain ⟨first, rest, rfl⟩ := exists_cons_of_is_signed_numeral numeral
  rw [List.cons_append] at taken
  have found := List.IsPrefix.ne_nil taken (List.cons_ne_nil _ _)
  obtain ⟨notWhite, scanned⟩ := scan_of_leading_number found
  exact ⟨first, rest ++ suffix, _, rfl, notWhite, scanned, taken.length_le⟩

/-- An equals sign that follows makes `>` and `<` longer and leaves the other signs alone. -/
theorem exists_leading_comparator (sign : Comparator) (suffix : List Char) :
    ∃ other, leadingComparator? (sign.spelling.toList ++ suffix) = some other ∧
      sign.spelling.toList.length ≤ other.spelling.toList.length := by
  by_cases ends : (Token.comparator sign).EndsBefore suffix
  · exact ⟨sign, leading_comparator?_spelling ends, Nat.le_refl _⟩
  · simp only [Token.EndsBefore, Classical.not_forall, Bool.not_eq_false] at ends
    obtain ⟨character, first, continues⟩ := ends
    obtain ⟨rest, rfl⟩ := List.head?_eq_some_iff.1 first
    have isEqual : character = '=' := by
      cases sign with
      | greater => exact beq_iff_eq.1 continues
      | less => exact beq_iff_eq.1 continues
      | _ => cases continues
    rw [isEqual]
    cases sign with
    | equal => exact ⟨.equal, rfl, Nat.le_refl _⟩
    | greaterEqual => exact ⟨.greaterEqual, rfl, Nat.le_refl _⟩
    | lessEqual => exact ⟨.lessEqual, rfl, Nat.le_refl _⟩
    | greater => exact ⟨.greaterEqual, rfl, by decide⟩
    | less => exact ⟨.lessEqual, rfl, by decide⟩

theorem scan_covers_comparator (sign : Comparator) (suffix : List Char) :
    ∃ first rest lexeme, sign.spelling.toList ++ suffix = first :: rest ∧
      isWhitespace first = false ∧ scan first rest = .ok lexeme ∧
      sign.spelling.toList.length ≤ lexeme.spelling.length := by
  obtain ⟨other, found, longer⟩ := exists_leading_comparator sign suffix
  obtain ⟨first, rest, spelled⟩ := exists_cons_spelling sign
  rw [spelled, List.cons_append] at found ⊢
  obtain ⟨notWhite, scanned⟩ := scan_of_leading_comparator found
  rw [← spelled]
  exact ⟨first, rest ++ suffix, _, rfl, notWhite, scanned, longer⟩

/-- Where a text of a rule stands, a token is read that is at least as long. This is the half of the
longest match that needs one argument for each rule. -/
theorem scan_covers {text : List Char} {token : Token} (belongs : IsLexeme text token)
    (suffix : List Char) :
    ∃ first rest lexeme, text ++ suffix = first :: rest ∧ isWhitespace first = false ∧
      scan first rest = .ok lexeme ∧ text.length ≤ lexeme.spelling.length := by
  cases belongs with
  | star => exact ⟨'*', suffix, _, rfl, rfl, rfl, Nat.le_refl _⟩
  | comma => exact ⟨',', suffix, _, rfl, rfl, rfl, Nat.le_refl _⟩
  | comparator sign => exact scan_covers_comparator sign suffix
  | number isNumeral => exact scan_covers_number isNumeral suffix
  | string plain =>
      exact ⟨backtick, _, _, rfl, rfl, scan_string plain suffix, Nat.le_refl _⟩
  | project => exact scan_covers_word is_identifier_project suffix
  | filter => exact scan_covers_word is_identifier_filter suffix
  | identifier isIdentifier => exact scan_covers_word isIdentifier suffix

/-- The text is a token at the start of what remains, and no longer beginning of it is one. -/
structure LongestLexeme (remaining text : List Char) (token : Token) : Prop where
  starts : text <+: remaining
  belongs : IsLexeme text token
  longest : ∀ other kind, IsLexeme other kind → other <+: remaining → other.length ≤ text.length

def StartsWithNoLexeme (remaining : List Char) : Prop :=
  ∀ text token, IsLexeme text token → ¬text <+: remaining

theorem longest_lexeme_of_scan {first : Char} {rest : List Char} {lexeme : Lexeme}
    (scanned : scan first rest = .ok lexeme) :
    LongestLexeme (first :: rest) lexeme.spelling lexeme.token := by
  constructor
  · exact spelling_starts_of_scan scanned
  · exact is_lexeme_iff.2 ⟨well_formed_of_scan scanned, (spelling_of_scan scanned).symm⟩
  · rintro other kind belongs ⟨suffix, split⟩
    obtain ⟨_, _, longer, begins, -, again, covers⟩ := scan_covers belongs suffix
    cases split.symm.trans begins
    cases scanned.symm.trans again
    exact covers

theorem starts_with_no_lexeme_of_scan {first : Char} {rest : List Char} {fault : LexicalFault}
    (failed : scan first rest = .error fault) : StartsWithNoLexeme (first :: rest) := by
  rintro text token belongs ⟨suffix, split⟩
  obtain ⟨_, _, lexeme, begins, -, scanned, -⟩ := scan_covers belongs suffix
  cases split.symm.trans begins
  cases failed.symm.trans scanned

theorem starts_with_no_lexeme_nil : StartsWithNoLexeme [] := by
  rintro text token belongs ⟨suffix, split⟩
  obtain ⟨first, rest, -, begins, -⟩ := scan_covers belongs suffix
  cases split.symm.trans begins

def stopOutcome : List Char → Lexer.Outcome
  | [] => .endOfInput
  | first :: _ =>
      .failure (if first = backtick then .unterminatedString else .unexpectedCharacter first)

theorem failure_of_scan {first : Char} {rest : List Char} {fault : LexicalFault}
    (failed : scan first rest = .error fault) :
    Lexer.Outcome.failure fault = stopOutcome (first :: rest) := by
  rw [stopOutcome]
  unfold scan at failed
  dsimp only at failed
  split at failed
  · cases failed
  split at failed
  · cases failed
  split at failed
  · rename_i opens
    rw [if_pos opens]
    split at failed <;> cases failed
    rfl
  · rename_i other
    rw [if_neg other]
    split at failed
    · cases failed
    · split at failed <;> cases failed
      rfl

namespace Lexer

/-- One call passes the white space. Then it takes the longest token, or there is none and it
stays. -/
theorem next_cases (lexer : Lexer) :
    ∃ gap remaining, lexer.rest = gap ++ remaining ∧
      (∀ character ∈ gap, isWhitespace character = true) ∧
      (∀ character ∈ remaining.head?, isWhitespace character = false) ∧
      ((∃ token suffix, remaining = token.spelling ++ suffix ∧
          LongestLexeme remaining token.spelling token ∧
          lexer.next =
            (.token token, ⟨lexer.before ++ lexer.spelling ++ gap, token.spelling, suffix⟩)) ∨
        StartsWithNoLexeme remaining ∧
          lexer.next =
            (stopOutcome remaining, ⟨lexer.before ++ lexer.spelling ++ gap, [], remaining⟩)) := by
  refine ⟨lexer.rest.takeWhile isWhitespace, lexer.rest.dropWhile isWhitespace,
    List.takeWhile_append_dropWhile.symm, fun _ => test_of_mem_takeWhile,
    fun _ => test_of_mem_head?_dropWhile, ?_⟩
  unfold next
  cases lexer.rest.dropWhile isWhitespace with
  | nil => exact .inr ⟨starts_with_no_lexeme_nil, rfl⟩
  | cons first rest =>
      cases scanned : scan first rest with
      | error fault =>
          right
          refine ⟨starts_with_no_lexeme_of_scan scanned, ?_⟩
          simp only [scanned, failure_of_scan scanned]
      | ok lexeme =>
          left
          have longest := longest_lexeme_of_scan scanned
          rw [spelling_of_scan scanned] at longest
          obtain ⟨suffix, split⟩ := longest.starts
          refine ⟨lexeme.token, suffix, split.symm, longest, ?_⟩
          simp only [scanned, spelling_of_scan scanned, ← split, List.drop_left]

theorem next_of_starts_with_no_lexeme {before remaining : List Char}
    (stop : ∀ character ∈ remaining.head?, isWhitespace character = false)
    (stuck : StartsWithNoLexeme remaining) :
    (Lexer.mk before [] remaining).next = (stopOutcome remaining, ⟨before, [], remaining⟩) := by
  obtain ⟨gap, rest, split, blank, -, outcome⟩ := (Lexer.mk before [] remaining).next_cases
  have whole : remaining = gap ++ rest := split
  have noGap : gap = [] := by
    cases gap with
    | nil => rfl
    | cons white others =>
        have notWhite := stop white (by rw [whole]; rfl)
        rw [blank white (List.mem_cons_self ..)] at notWhite
        cases notWhite
  rw [noGap, List.nil_append] at whole
  rw [noGap, ← whole] at outcome
  rcases outcome with ⟨token, -, -, longest, -⟩ | ⟨-, same⟩
  · exact absurd longest.starts (stuck _ _ longest.belongs)
  · rw [same, List.append_nil, List.append_nil]

def afterCalls (lexer : Lexer) : Nat → Lexer
  | 0 => lexer
  | count + 1 => lexer.next.2.afterCalls count

theorem after_calls_of_next_eq {lexer : Lexer} (stays : lexer.next.2 = lexer) (count : Nat) :
    lexer.afterCalls count = lexer := by
  induction count with
  | zero => rfl
  | succ count induction => rw [afterCalls, stays, induction]

/-- How calling the lexer again and again divides the text in front of it: tokens with the white
space before each of them, then more white space, then a rest in which no token starts. -/
structure Division (lexer : Lexer) (pieces : List SpacedToken) (gap rest : List Char) : Prop where
  whole : lexer.rest = layOut (gap ++ rest) pieces
  blank : ∀ character ∈ gap, isWhitespace character = true
  /-- White space is passed as far as it goes, the longest token is taken, and the place of the
  token is where it starts. -/
  taken : ∀ earlier piece later, pieces = earlier ++ piece :: later →
    let remaining := piece.token.spelling ++ layOut (gap ++ rest) later
    (∀ character ∈ remaining.head?, isWhitespace character = false) ∧
      LongestLexeme remaining piece.token.spelling piece.token ∧
      (lexer.afterCalls earlier.length).outcome = .token piece.token ∧
      (lexer.afterCalls earlier.length).nextPosition =
        .after (lexer.before ++ lexer.spelling ++ (layOut [] earlier ++ piece.gap))
  ended : ∀ character ∈ rest.head?, isWhitespace character = false
  stuck : StartsWithNoLexeme rest
  /-- From there on every call has the same outcome, placed where the rest starts. -/
  stays : ∀ count, pieces.length ≤ count →
    (lexer.afterCalls count).outcome = stopOutcome rest ∧
      (lexer.afterCalls count).nextPosition =
        .after (lexer.before ++ lexer.spelling ++ (layOut [] pieces ++ gap))

theorem division_of_stuck {lexer : Lexer} {gap rest : List Char} (split : lexer.rest = gap ++ rest)
    (blank : ∀ character ∈ gap, isWhitespace character = true)
    (ended : ∀ character ∈ rest.head?, isWhitespace character = false)
    (stuck : StartsWithNoLexeme rest)
    (stopped : lexer.next = (stopOutcome rest, ⟨lexer.before ++ lexer.spelling ++ gap, [], rest⟩)) :
    lexer.Division [] gap rest := by
  let last : Lexer := ⟨lexer.before ++ lexer.spelling ++ gap, [], rest⟩
  have again : last.next = (stopOutcome rest, last) := next_of_starts_with_no_lexeme ended stuck
  refine ⟨split, blank, ?_, ended, stuck, ?_⟩
  · intro earlier piece later cut
    cases earlier <;> cases cut
  · intro count _
    cases count with
    | zero =>
        rw [afterCalls, outcome, nextPosition, stopped]
        exact ⟨rfl, rfl⟩
    | succ count =>
        have stays : last.next.2 = last := by rw [again]
        rw [afterCalls, stopped, after_calls_of_next_eq stays, outcome, nextPosition, again]
        exact ⟨rfl, rfl⟩

theorem Division.cons {lexer : Lexer} {piece : SpacedToken} {suffix : List Char}
    (split : lexer.rest = piece.gap ++ (piece.token.spelling ++ suffix))
    (notWhite : ∀ character ∈ (piece.token.spelling ++ suffix).head?,
      isWhitespace character = false)
    (longest : LongestLexeme (piece.token.spelling ++ suffix) piece.token.spelling piece.token)
    (read : lexer.next = (.token piece.token,
      ⟨lexer.before ++ lexer.spelling ++ piece.gap, piece.token.spelling, suffix⟩))
    {pieces : List SpacedToken} {gap rest : List Char}
    (later : lexer.next.2.Division pieces gap rest) :
    lexer.Division (piece :: pieces) gap rest := by
  rw [read] at later
  have whole : suffix = layOut (gap ++ rest) pieces := later.whole
  have place (earlier : List SpacedToken) (white : List Char) :
      lexer.before ++ lexer.spelling ++ piece.gap ++ piece.token.spelling ++
          (layOut [] earlier ++ white) =
        lexer.before ++ lexer.spelling ++ (layOut [] (piece :: earlier) ++ white) := by
    simp only [layOut, List.append_assoc]
  constructor
  · rw [split, layOut, whole]
  · exact later.blank
  · intro earlier other others same
    -- The first token is the one that this call takes; all others are taken by later calls.
    cases earlier with
    | nil =>
        cases same
        rw [← whole]
        refine ⟨notWhite, longest, ?_, ?_⟩
        · rw [List.length_nil, afterCalls, outcome, read]
        · rw [List.length_nil, afterCalls, nextPosition, read]
          rfl
    | cons head tail =>
        cases same
        obtain ⟨otherNotWhite, otherLongest, otherOutcome, otherPlace⟩ :=
          later.taken tail other others rfl
        refine ⟨otherNotWhite, otherLongest, ?_, ?_⟩
        · rw [List.length_cons, afterCalls, read]
          exact otherOutcome
        · rw [List.length_cons, afterCalls, read, ← place]
          exact otherPlace
  · exact later.ended
  · exact later.stuck
  · intro count many
    cases count with
    | zero => cases many
    | succ count =>
        obtain ⟨same, samePlace⟩ := later.stays count (Nat.le_of_succ_le_succ many)
        rw [afterCalls, read, ← place]
        exact ⟨same, samePlace⟩

/-- Every call that takes a token leaves less text, so the division comes to an end. -/
theorem exists_division (lexer : Lexer) : ∃ pieces gap rest, lexer.Division pieces gap rest := by
  obtain ⟨gap, remaining, split, blank, notWhite, taken | stopped⟩ := lexer.next_cases
  · obtain ⟨token, suffix, rfl, longest, read⟩ := taken
    have shorter := length_rest_lt_of_next read
    obtain ⟨pieces, ending, rest, later⟩ := exists_division lexer.next.2
    have wellFormed := (is_lexeme_iff.1 longest.belongs).1
    exact ⟨⟨gap, token, blank, wellFormed⟩ :: pieces, ending, rest,
      .cons split notWhite longest read later⟩
  · exact ⟨[], gap, remaining, division_of_stuck split blank notWhite stopped.1 stopped.2⟩
termination_by lexer.rest.length
decreasing_by
  rw [read]
  exact shorter

end Lexer

theorem length_le_length_lay_out (ending : List Char) (pieces : List SpacedToken) :
    pieces.length ≤ (layOut ending pieces).length := by
  induction pieces with
  | nil => exact Nat.zero_le _
  | cons piece rest induction =>
      obtain ⟨first, others, spelled, -⟩ := piece.token.exists_opens_with piece.wellFormed
      simp only [layOut, spelled, List.length_cons, List.length_append]
      omega

end TableQuery
