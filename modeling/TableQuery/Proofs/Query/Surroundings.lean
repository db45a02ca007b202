import TableQuery.Proofs.Query.Separation
import TableQuery.Proofs.Text.Trimming

/-!
White space around a query text does not count. No token reaches into the white space behind it, so
a text and its trimmed text are read in step: the same tokens, the same outcome, and errors that
differ in nothing but their places.
-/

namespace TableQuery

theorem leading_fraction_eq_nil {text : List Char} (noPoint : text.head? ≠ some '.') :
    leadingFraction text = [] := by
  unfold leadingFraction
  split
  · exact absurd rfl noPoint
  · rfl

theorem leading_comparator?_cons (first : Char) (rest : List Char) :
    leadingComparator? (first :: rest) =
      if first = '>' then some (if rest.head? = some '=' then .greaterEqual else .greater)
      else if first = '<' then some (if rest.head? = some '=' then .lessEqual else .less)
      else if first = '=' then some .equal
      else none := by
  unfold leadingComparator?
  split <;> simp_all [List.head?_eq_some_iff]

section Behind

variable {back : List Char} (blank : ∀ character ∈ back, isWhitespace character = true)

include blank

theorem cut_append_blank {test : Char → Bool}
    (apart : ∀ character, isWhitespace character = true → test character = false)
    (text : List Char) :
    (text ++ back).takeWhile test = text.takeWhile test ∧
      (text ++ back).dropWhile test = text.dropWhile test ++ back := by
  have stop : ∀ character ∈ back.head?, test character = false := by
    intro character first
    exact apart character (is_whitespace_of_mem_head? blank first)
  induction text with
  | nil => exact span_append (by simp) back stop
  | cons first rest induction =>
      cases found : test first with
      | true => simpa [found] using induction
      | false => simp [found]

theorem head?_ne_of_blank {sign : Char} (visible : isWhitespace sign = false) :
    back.head? ≠ some sign := by
  intro first
  exact ne_of_test (is_whitespace_of_mem_head? blank first) visible rfl

theorem leading_fraction_append_blank (text : List Char) :
    leadingFraction (text ++ back) = leadingFraction text := by
  cases text with
  | nil => exact leading_fraction_eq_nil (head?_ne_of_blank blank rfl)
  | cons first rest =>
      by_cases point : first = '.'
      · have cut := cut_append_blank blank (fun _ => isDigit_eq_false_of_is_whitespace) rest
        rw [point, List.cons_append]
        simp only [leadingFraction, cut.1]
      · have noPoint (tail : List Char) : (first :: tail).head? ≠ some '.' := by simpa using point
        rw [List.cons_append, leading_fraction_eq_nil (noPoint _),
          leading_fraction_eq_nil (noPoint _)]

theorem leading_unsigned_append_blank (text : List Char) :
    leadingUnsigned (text ++ back) = leadingUnsigned text := by
  have cut := cut_append_blank blank (fun _ => isDigit_eq_false_of_is_whitespace) text
  simp only [leadingUnsigned, cut.1, cut.2, leading_fraction_append_blank blank]

theorem leading_number_append_blank (first : Char) (rest : List Char) :
    leadingNumber (first :: (rest ++ back)) = leadingNumber (first :: rest) := by
  have unsigned := leading_unsigned_append_blank blank (first :: rest)
  rw [List.cons_append] at unsigned
  unfold leadingNumber
  split
  · rename_i same
    cases same
    simp only [leading_unsigned_append_blank blank]
  · split
    · rename_i same
      cases same
      simp_all
    · exact unsigned

theorem leading_word_append_blank (first : Char) (rest : List Char) :
    leadingWord (first :: (rest ++ back)) = leadingWord (first :: rest) := by
  have cut := cut_append_blank blank (fun _ => is_word_character_eq_false_of_is_whitespace) rest
  simp only [leadingWord, cut.1]

theorem leading_comparator?_append_blank (first : Char) (rest : List Char) :
    leadingComparator? (first :: (rest ++ back)) = leadingComparator? (first :: rest) := by
  have noEqual : back.head? ≠ some '=' := head?_ne_of_blank blank rfl
  have sameNext : (rest ++ back).head? = some '=' ↔ rest.head? = some '=' := by
    cases rest <;> simp [noEqual]
  simp only [leading_comparator?_cons, sameNext]

/-- White space holds no backtick, so it closes no string. -/
theorem leading_string_body?_append_blank (first : Char) (rest : List Char) :
    leadingStringBody? (first :: (rest ++ back)) = leadingStringBody? (first :: rest) := by
  have plain : backtick ∉ back := by
    intro member
    cases blank backtick member
  by_cases closed : backtick ∈ rest
  · rcases List.eq_append_cons_of_mem closed with ⟨body, suffix, rfl, apart⟩
    have all : ∀ character ∈ body, (character != backtick) = true := by
      intro character member
      rw [bne_iff_ne]
      exact fun same => apart (same ▸ member)
    have stop (tail : List Char) :
        (body ++ backtick :: tail).takeWhile (· != backtick) = body :=
      (span_append all (backtick :: tail) (by simp)).1
    simp [leadingStringBody?, stop]
  · simp [leadingStringBody?, plain, closed]

/-- A token does not reach into the white space behind a text. -/
theorem scan_append_blank (first : Char) (rest : List Char) :
    scan first (rest ++ back) = scan first rest := by
  simp only [scan, leading_number_append_blank blank, leading_word_append_blank blank,
    leading_comparator?_append_blank blank, leading_string_body?_append_blank blank]

end Behind

/-- A lexer whose text is that of another one with white space around it. The two differ in their
places, but never in what they read. -/
def Lexer.Surrounds (lexer inner : Lexer) : Prop :=
  ∃ front back, lexer.rest = front ++ (inner.rest ++ back) ∧
    (∀ character ∈ front, isWhitespace character = true) ∧
    ∀ character ∈ back, isWhitespace character = true

namespace Lexer

theorem outcome_of_dropWhile_eq_nil {lexer : Lexer}
    (blank : lexer.rest.dropWhile isWhitespace = []) : lexer.outcome = .endOfInput :=
  outcome_of_blank (List.dropWhile_eq_nil_iff.1 blank)

/-- Both lexers give the same outcome, and a token leaves them as they were to each other. -/
theorem Surrounds.next {lexer inner : Lexer} (around : lexer.Surrounds inner) :
    lexer.outcome = inner.outcome ∧
      ∀ token, inner.outcome = .token token → lexer.next.2.Surrounds inner.next.2 := by
  rcases around with ⟨front, back, whole, blankFront, blankBack⟩
  have passed : lexer.rest.dropWhile isWhitespace =
      (inner.rest ++ back).dropWhile isWhitespace := by
    rw [whole]
    exact List.dropWhile_append_of_pos blankFront
  rw [List.dropWhile_append] at passed
  cases same : inner.rest.dropWhile isWhitespace with
  | nil =>
      have noneBehind : back.dropWhile isWhitespace = [] := List.dropWhile_eq_nil_iff.2 blankBack
      rw [same, noneBehind] at passed
      have ended := outcome_of_dropWhile_eq_nil passed
      have innerEnded := outcome_of_dropWhile_eq_nil same
      refine ⟨ended.trans innerEnded.symm, ?_⟩
      intro token found
      cases innerEnded.symm.trans found
  | cons first rest =>
      have scanned := scan_append_blank blankBack first rest
      rw [same] at passed
      simp only [List.isEmpty_cons, Bool.false_eq_true, if_false, List.cons_append] at passed
      simp only [outcome, Lexer.next, passed, same, scanned]
      cases read : scan first rest with
      | error fault => simp
      | ok lexeme =>
          have starts := (spelling_starts_of_scan read).length_le
          refine ⟨rfl, fun _ _ => ⟨[], back, ?_, by simp, blankBack⟩⟩
          rw [List.nil_append, ← List.drop_append_of_le_length starts, List.cons_append]

theorem Surrounds.reads {lexer inner last : Lexer} {tokens : List Token}
    (around : lexer.Surrounds inner) (read : inner.Reads tokens last) :
    ∃ outer, lexer.Reads tokens outer ∧ outer.Surrounds last := by
  induction read generalizing lexer with
  | stay inner => exact ⟨lexer, .stay lexer, around⟩
  | @pass inner after last token tokens read _ induction =>
      have found : inner.outcome = .token token := by rw [outcome, read]
      have step := around.next
      have stepped := step.2 token found
      rw [read] at stepped
      rcases induction stepped with ⟨outer, later, still⟩
      exact ⟨outer, .pass (Prod.ext (step.1.trans found) rfl) later, still⟩

end Lexer

theorem Progress.StopsBefore.around {progress : Progress} {lexer inner : Lexer}
    (around : lexer.Surrounds inner) (stops : progress.StopsBefore inner) :
    progress.StopsBefore lexer := by
  intro token found
  apply stops token
  rw [← around.next.1, found]

/-- White space around a text moves the place of a failure and changes nothing else. -/
theorem Progress.fault_verdict_around {lexer inner : Lexer} (around : lexer.Surrounds inner)
    (progress : Progress) :
    (progress.verdict lexer).mapError Failure.fault =
      (progress.verdict inner).mapError Failure.fault := by
  simp only [Progress.verdict, around.next.1]
  cases inner.outcome with
  | token token => rfl
  | failure fault => rfl
  | endOfInput => cases progress.finish? <;> rfl

/-- A text and its trimmed text are read as the same query, or refused for the same reason. Only the
place of the failure may differ, by what was trimmed off in front. -/
theorem fault_parse_trimmed (text : String) :
    (parse text).mapError SyntaxError.fault =
      (parse (trimmed text)).mapError SyntaxError.fault := by
  rcases exists_eq_append_trim text.toList with ⟨front, back, whole, blankFront, blankBack⟩
  have around : (Lexer.start text.toList).Surrounds (.start (trimmed text).toList) := by
    refine ⟨front, back, ?_, blankFront, blankBack⟩
    rw [trimmed, String.toList_ofList]
    exact whole
  rcases exists_parse_stop (trimmed text) with ⟨tokens, last, reached, read, taken, stops, answer⟩
  rcases around.reads read with ⟨outer, outerRead, still⟩
  have outerAnswer : parse text =
      (reached.verdict outer).mapError (Parser.syntaxError text.toList) := by
    rw [parse_eq_run, TokenStream.ofSource, Progress.outcome_run_of_reads outerRead taken,
      Progress.outcome_run_of_stops_before (stops.around still)]
  rw [answer, outerAnswer, mapError_mapError, mapError_mapError]
  exact Progress.fault_verdict_around still reached

end TableQuery
