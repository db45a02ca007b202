import TableQuery.Proofs.Query.Spelling

/-!
Texts that are put together from the spellings of tokens. White space may stand before every token
and must stand where the next token would lengthen the one before it. The lexer takes such a text
apart again, up to whatever stands after the last token.
-/

namespace TableQuery

/-- The text spells these tokens, and the rest of it follows. The white space belongs to the token
after it, as in the lexer. -/
inductive Spells (rest : List Char) : List Token → List Char → Prop
  | nil : Spells rest [] rest
  | cons (gap : List Char) {suffix : List Char} (token : Token) {tokens : List Token}
      (blank : ∀ character ∈ gap, isWhitespace character = true) (wellFormed : token.WellFormed)
      (ends : token.EndsBefore suffix) (later : Spells rest tokens suffix) :
      Spells rest (token :: tokens) (gap ++ (token.spelling ++ suffix))

namespace Lexer

theorem next_of_spelling {gap suffix : List Char} {token : Token}
    (blank : ∀ character ∈ gap, isWhitespace character = true) (wellFormed : token.WellFormed)
    (ends : token.EndsBefore suffix) (before spelling : List Char) :
    (Lexer.mk before spelling (gap ++ (token.spelling ++ suffix))).next =
      (.token token, ⟨before ++ spelling ++ gap, token.spelling, suffix⟩) := by
  rcases scan_spelling wellFormed ends with ⟨first, rest, begins, notWhite, scanned⟩
  have stop : ∀ character ∈ (first :: rest).head?, isWhitespace character = false := by
    simpa using notWhite
  have cut := span_append blank (first :: rest) stop
  have passed : (first :: rest).drop token.spelling.length = suffix := by
    rw [← begins, List.drop_left]
  simp only [next, begins, cut.1, cut.2, scanned, passed]

theorem outcome_of_blank {lexer : Lexer}
    (blank : ∀ character ∈ lexer.rest, isWhitespace character = true) :
    lexer.outcome = .endOfInput := by
  have cut := span_append blank [] (by simp)
  rw [List.append_nil] at cut
  simp only [outcome, next, cut.2]

theorem well_formed_of_next {lexer after : Lexer} {token : Token}
    (read : lexer.next = (.token token, after)) : token.WellFormed := by
  unfold next at read
  dsimp only at read
  split at read
  · cases read
  · split at read
    · rename_i scanned
      cases read
      exact well_formed_of_scan scanned
    · cases read

theorem Reads.well_formed {lexer last : Lexer} {tokens : List Token}
    (read : lexer.Reads tokens last) : ∀ token ∈ tokens, token.WellFormed := by
  induction read with
  | stay => simp
  | pass read _ induction =>
      intro token member
      rcases List.mem_cons.1 member with rfl | later
      · exact well_formed_of_next read
      · exact induction token later

end Lexer

theorem Spells.exists_reads {rest text : List Char} {tokens : List Token}
    (spelled : Spells rest tokens text) (before spelling : List Char) :
    ∃ last, (Lexer.mk before spelling text).Reads tokens last ∧ last.rest = rest := by
  induction spelled generalizing before spelling with
  | nil => exact ⟨_, .stay _, rfl⟩
  | cons gap token blank wellFormed ends _ induction =>
      rcases induction (before ++ spelling ++ gap) token.spelling with ⟨last, read, same⟩
      exact ⟨last, .pass (Lexer.next_of_spelling blank wellFormed ends before spelling) read, same⟩

theorem Spells.append {rest middle text : List Char} {front back : List Token}
    (spelled : Spells middle front text) (later : Spells rest back middle) :
    Spells rest (front ++ back) text := by
  induction spelled with
  | nil => exact later
  | cons gap token blank wellFormed ends _ induction =>
      exact .cons gap token blank wellFormed ends induction

end TableQuery
