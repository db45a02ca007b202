import TableQuery.Proofs.Query.LongestToken
import TableQuery.Proofs.Text.Places

/-!
What the message of a syntax error points at. It shows the line where reading stopped, and its caret
stands under the first character of what was found there, behind the line at the end of the text.
The line is shown without a carriage return in front of its line feed; the caret never stands under
or behind that one, because white space in front of a token has been passed.
-/

namespace TableQuery

/-- The text of a line, lines being counted from zero, less one carriage return in front of its line
feed. The last line has no line feed. -/
def ShowsLine (text : List Char) (index : Nat) (shown : List Char) : Prop :=
  ∃ line, (lines text)[index]? = some line ∧
    (index + 1 = (lines text).length ∧ shown = line ∨
      index + 1 < (lines text).length ∧
        (line = shown ++ ['\r'] ∨ line = shown ∧ line.getLast? ≠ some '\r'))

theorem without_return_cases (line : List Char) :
    line = withoutReturn line ++ ['\r'] ∨
      line = withoutReturn line ∧ line.getLast? ≠ some '\r' := by
  unfold withoutReturn
  split
  · rename_i ending
    exact .inl (List.dropLast_append_getLast? _ ending).symm
  · rename_i other
    exact .inr ⟨rfl, other⟩

/-- Another character protects what stands in front of it. -/
theorem without_return_append_cons {character : Char} (other : character ≠ '\r')
    (front rest : List Char) :
    withoutReturn (front ++ character :: rest) = front ++ character :: withoutReturn rest := by
  unfold withoutReturn
  cases rest with
  | nil => simp [other]
  | cons next others =>
      have last : (front ++ character :: next :: others).getLast? = (next :: others).getLast? := by
        rw [List.getLast?_append_cons, List.getLast?_cons_cons]
      have init : (front ++ character :: next :: others).dropLast =
          front ++ character :: (next :: others).dropLast := by
        rw [List.dropLast_append_cons, List.dropLast_cons_cons]
      rw [last, init]
      split <;> rfl

/-- A line is shown shorter only if a line feed ends it. -/
theorem line_text_eq {index : Nat} {text line : List Char}
    (found : (lines text)[index]? = some line) :
    lineText index text =
      if index + 1 < (lines text).length then withoutReturn line else line := by
  induction index generalizing text with
  | zero =>
      rw [getElem?_zero_lines] at found
      cases found
      rw [lineText, firstLine]
      rcases lines_cases text with ⟨apart, split⟩ | ⟨first, rest, apart, rfl, split⟩
      · simp [split, List.takeWhile_eq_self_iff.2 (bne_of_not_mem apart)]
      · simp [split, takeWhile_append_feed apart, length_lines]
  | succ index induction =>
      rcases lines_cases text with ⟨apart, split⟩ | ⟨first, rest, apart, rfl, split⟩
      · rw [split] at found
        cases found
      · have behind : (first ++ '\n' :: rest).dropWhile (· != '\n') = '\n' :: rest :=
          (span_append (bne_of_not_mem apart) ('\n' :: rest) (by simp)).2
        rw [split, List.getElem?_cons_succ] at found
        rw [lineText, behind, List.drop_succ_cons, List.drop_zero, induction found]
        simp only [split, List.length_cons, Nat.add_lt_add_iff_right]

theorem shows_line_line_text {text line : List Char} {index : Nat}
    (found : (lines text)[index]? = some line) : ShowsLine text index (lineText index text) := by
  have inside := (List.getElem?_eq_some_iff.1 found).1
  refine ⟨line, found, ?_⟩
  rw [line_text_eq found]
  split
  · rename_i ended
    exact .inr ⟨ended, without_return_cases line⟩
  · rename_i last
    exact .inl ⟨Nat.le_antisymm inside (Nat.not_lt.1 last), rfl⟩

theorem exists_line_text_split (before : List Char) {after : List Char}
    (visible : ∀ character ∈ after.head?, isWhitespace character = false) :
    ∃ tail, lineText (before.count '\n') (before ++ after) = lastLine before ++ tail ∧
      tail.head? = after.head? := by
  have shown := line_text_eq (getElem?_lines_append before after)
  cases after with
  | nil =>
      have last : ¬before.count '\n' + 1 < (lines (before ++ [])).length := by
        rw [List.append_nil, length_lines]
        exact Nat.lt_irrefl _
      rw [if_neg last] at shown
      exact ⟨[], shown, rfl⟩
  | cons character rest =>
      have notWhite : isWhitespace character = false := visible character rfl
      have noFeed : (character != '\n') = true := bne_iff_ne.2 (by rintro rfl; cases notWhite)
      have noReturn : character ≠ '\r' := by
        rintro rfl
        cases notWhite
      have begun : (character :: rest).takeWhile (· != '\n') =
          character :: rest.takeWhile (· != '\n') := List.takeWhile_cons_of_pos noFeed
      rw [begun, without_return_append_cons noReturn] at shown
      split at shown
      · exact ⟨_, shown, rfl⟩
      · exact ⟨_, shown, rfl⟩

/-- The character at which the lexer fails: the one that begins no token, or the backtick that opens
the string. -/
def LexicalFault.character : LexicalFault → Char
  | unexpectedCharacter character => character
  | unterminatedString => backtick

/-- What the lexer finds, as it stands in the text. Of a piece that is no token it is the first
character. -/
def Lexer.Outcome.lexeme : Outcome → List Char
  | .token found => found.spelling
  | .endOfInput => []
  | .failure fault => [fault.character]

def SyntaxFault.lexeme : SyntaxFault → List Char
  | unexpected _ (some token) => token.spelling
  | unexpected _ none => []
  | lexical fault => [fault.character]

namespace Lexer

theorem Reads.source {lexer last : Lexer} {tokens : List Token} (read : lexer.Reads tokens last) :
    last.source = lexer.source := by
  induction read with
  | stay => rfl
  | @pass lexer after last token tokens read later induction =>
      have kept := lexer.source_next
      rw [read] at kept
      rw [induction, kept]

/-- The lexer finds something that stands in the text behind white space, and nothing only at the
end. -/
structure Finds (lexer : Lexer) (before after : List Char) : Prop where
  whole : lexer.source = before ++ after
  place : lexer.nextPosition = .after before
  visible : ∀ character ∈ after.head?, isWhitespace character = false
  found : lexer.outcome.lexeme <+: after
  ended : lexer.outcome.lexeme = [] → after = []

theorem lexeme_stop_outcome (remaining : List Char) :
    (stopOutcome remaining).lexeme = remaining.take 1 := by
  cases remaining with
  | nil => rfl
  | cons first rest =>
      rw [stopOutcome, List.take_succ_cons, List.take_zero]
      split
      · rename_i opens
        rw [opens]
        rfl
      · rfl

theorem exists_finds (lexer : Lexer) : ∃ before after, lexer.Finds before after := by
  obtain ⟨gap, remaining, split, -, visible, taken | ⟨-, stopped⟩⟩ := lexer.next_cases
  · obtain ⟨token, suffix, rfl, longest, read⟩ := taken
    have wellFormed := (is_lexeme_iff.1 longest.belongs).1
    obtain ⟨first, rest, spelled, -⟩ := token.exists_opens_with wellFormed
    refine ⟨lexer.before ++ lexer.spelling ++ gap, token.spelling ++ suffix, ?_⟩
    constructor
    · rw [source, split, List.append_assoc _ gap]
    · rw [nextPosition, read]
      rfl
    · exact visible
    · rw [outcome, read]
      exact List.prefix_append _ _
    · rw [outcome, read, Outcome.lexeme, spelled]
      intro nothing
      cases nothing
  · refine ⟨lexer.before ++ lexer.spelling ++ gap, remaining, ?_⟩
    constructor
    · rw [source, split, List.append_assoc _ gap]
    · rw [nextPosition, stopped]
      rfl
    · exact visible
    · rw [outcome, stopped, lexeme_stop_outcome]
      exact List.take_prefix _ _
    · rw [outcome, stopped, lexeme_stop_outcome]
      intro nothing
      exact (List.take_eq_nil_iff.1 nothing).resolve_left Nat.one_ne_zero

end Lexer

theorem Progress.lexeme_of_verdict {progress : Progress} {lexer : Lexer} {failure : Failure}
    (failed : progress.verdict lexer = .error failure) :
    failure.position = lexer.nextPosition ∧ failure.fault.lexeme = lexer.outcome.lexeme := by
  unfold verdict at failed
  cases found : lexer.outcome with
  | token token =>
      rw [found] at failed
      cases failed
      exact ⟨rfl, rfl⟩
  | failure fault =>
      rw [found] at failed
      cases failed
      exact ⟨rfl, rfl⟩
  | endOfInput =>
      rw [found] at failed
      cases ended : progress.finish? with
      | some query =>
          rw [ended] at failed
          cases failed
      | none =>
          rw [ended] at failed
          cases failed
          exact ⟨rfl, rfl⟩

namespace SyntaxError

/-- The message shows the line of the error and puts the caret where the text in front of the error
ends and what was found begins. -/
structure PointsBetween (error : SyntaxError) (before after shown : List Char) : Prop where
  place : error.position = .locate (before ++ after) (byteLength before)
  offset : error.position.offset = byteLength before
  line_pos : 0 < error.position.line
  column_pos : 0 < error.position.column
  message : error.message =
    "Line " ++ toString error.position.line ++ ", col " ++ toString error.position.column ++
      ":\n" ++ ("> " ++ toString error.position.line ++ " | ") ++ String.ofList shown ++ "\n" ++
      String.ofList (List.replicate (("> " ++ toString error.position.line ++ " | ").length +
        (error.position.column - 1)) ' ') ++ "^" ++ "\n" ++ error.fault.explanation
  shows : ShowsLine (before ++ after) (error.position.line - 1) shown
  fits : error.position.column - 1 ≤ shown.length
  /-- What is shown in front of the caret stands between the start of the line and the error. -/
  passed : ∃ earlier, before = earlier ++ shown.take (error.position.column - 1) ∧
    byteLength earlier = lineStart (before ++ after) (error.position.line - 1)
  found : error.fault.lexeme <+: after
  under : shown[error.position.column - 1]? = error.fault.lexeme.head?
  ended : error.fault.lexeme = [] → after = [] ∧ shown.length = error.position.column - 1

theorem points_between {source before after : List Char} {fault : SyntaxFault}
    (whole : source = before ++ after)
    (visible : ∀ character ∈ after.head?, isWhitespace character = false)
    (found : fault.lexeme <+: after) (ended : fault.lexeme = [] → after = []) :
    ∃ shown, PointsBetween ⟨source, .after before, fault⟩ before after shown := by
  obtain ⟨tail, shown, head⟩ := exists_line_text_split before visible
  have sameHead : after.head? = fault.lexeme.head? := by
    cases same : fault.lexeme with
    | nil => rw [ended same]
    | cons first rest =>
        rw [same] at found
        obtain ⟨suffix, rfl⟩ := found
        rfl
  have column : (Position.after before).column - 1 = (lastLine before).length := rfl
  obtain ⟨earlier, split, start⟩ := exists_line_start before after
  refine ⟨lastLine before ++ tail, ?_⟩
  constructor
  · exact (locate_append before after).symm
  · rfl
  · exact Nat.succ_pos _
  · exact Nat.succ_pos _
  · rw [← shown, ← whole]
    rfl
  · rw [← shown]
    exact shows_line_line_text (getElem?_lines_append before after)
  · rw [column, List.length_append]
    exact Nat.le_add_right _ _
  · rw [column, List.take_left]
    exact ⟨earlier, split, start⟩
  · exact found
  · rw [column, List.getElem?_append_right (Nat.le_refl _), Nat.sub_self, ← List.head?_eq_getElem?,
      head, sameHead]
  · intro nothing
    have noTail : tail = [] := by
      rw [← List.head?_eq_none_iff, head, ended nothing]
      rfl
    rw [noTail, List.append_nil]
    exact ⟨ended nothing, rfl⟩

end SyntaxError

/-- The caret points at the failure. An error shows the line in which reading stopped, as the text
has it, and its caret stands under the first character of what was found there, or right behind the
line at the end of the text. -/
theorem caret_points_at_failure {text : String} {error : SyntaxError}
    (rejected : parse text = .error error) :
    ∃ before after shown, text.toList = before ++ after ∧
      error.PointsBetween before after shown := by
  obtain ⟨tokens, lexer, reached, read, -, -, answer⟩ := exists_parse_stop text
  obtain ⟨failure, failed, rfl⟩ := exists_of_mapError_eq_error (answer.symm.trans rejected)
  obtain ⟨place, sameLexeme⟩ := Progress.lexeme_of_verdict failed
  obtain ⟨before, after, finds⟩ := lexer.exists_finds
  have whole : text.toList = before ++ after := read.source.symm.trans finds.whole
  have found := finds.found
  have ended := finds.ended
  rw [← sameLexeme] at found ended
  obtain ⟨shown, points⟩ := SyntaxError.points_between whole finds.visible found ended
  rw [← finds.place, ← place] at points
  exact ⟨before, after, shown, whole, points⟩

/-- The line is shown without its carriage return, and the caret stands under its last character. -/
theorem caret_points_at_failure_return_behind :
    let error : SyntaxError := ⟨"PROJECT ñ é\r\n*".toList, ⟨11, 1, 11⟩,
      .unexpected [.comma, .filter, .endOfInput] (some (.identifier "é"))⟩
    parse "PROJECT ñ é\r\n*" = .error error ∧
      ∃ before after shown, "PROJECT ñ é\r\n*".toList = before ++ after ∧
        error.PointsBetween before after shown := by
  intro error
  have rejected : parse "PROJECT ñ é\r\n*" = .error error :=
    eq_error_of_fault? (by decide +kernel)
  exact ⟨rejected, caret_points_at_failure rejected⟩

end TableQuery
