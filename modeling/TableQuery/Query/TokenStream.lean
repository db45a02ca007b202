import TableQuery.Text.Position
import TableQuery.Text.CharacterClass
import TableQuery.Query.LexicalRule

/-!
Reading a query text token by token. White space separates tokens and is otherwise skipped. The
stream of a text ends where the text does, or at the first piece that is no token.
-/

namespace TableQuery

structure LexicalError where
  fault : LexicalFault
  position : Position
  deriving DecidableEq, Repr

namespace LexicalFault

def text : LexicalFault → String
  | unexpectedCharacter character => "unexpected character '" ++ character.toString ++ "'"
  | unterminatedString => "unterminated string literal, missing closing '`'"

end LexicalFault

def LexicalError.message (error : LexicalError) : String :=
  error.position.text ++ ": " ++ error.fault.text

/-- A text cut at its latest token: what was passed before it, its spelling, and what remains.
Positions are counted from these pieces when they are needed. -/
structure Lexer where
  before : List Char
  spelling : List Char
  rest : List Char
  deriving DecidableEq, Repr

namespace Lexer

inductive Outcome where
  | token (token : Token)
  | endOfInput
  | failure (fault : LexicalFault)
  deriving DecidableEq, Repr

def start (source : List Char) : Lexer := ⟨[], [], source⟩

def source (lexer : Lexer) : List Char := lexer.before ++ lexer.spelling ++ lexer.rest

/-- Where the latest token starts, or where the latest attempt to read one failed. -/
def position (lexer : Lexer) : Position := .after lexer.before

/-- Reads one token. At the end and on a failure only white space is passed, so the next attempt
gives the same outcome. -/
def next (lexer : Lexer) : Outcome × Lexer :=
  let gap := lexer.rest.takeWhile isWhitespace
  let suffix := lexer.rest.dropWhile isWhitespace
  let before := lexer.before ++ lexer.spelling ++ gap
  match suffix with
  | [] => (.endOfInput, ⟨before, [], []⟩)
  | first :: rest =>
      match scan first rest with
      | .ok lexeme =>
          (.token lexeme.token,
            ⟨before, lexeme.spelling, suffix.drop lexeme.spelling.length⟩)
      | .error fault => (.failure fault, ⟨before, [], suffix⟩)

theorem source_next (lexer : Lexer) : lexer.next.2.source = lexer.source := by
  have whole := List.takeWhile_append_dropWhile (p := isWhitespace) (l := lexer.rest)
  unfold next
  generalize lexer.rest.takeWhile isWhitespace = gap at whole ⊢
  generalize lexer.rest.dropWhile isWhitespace = suffix at whole ⊢
  dsimp only
  split
  · simp [source, ← whole]
  · rename_i first rest
    split
    · rename_i lexeme scanned
      obtain ⟨tail, spelled⟩ := spelling_starts_of_scan scanned
      simp only [source, ← whole, ← spelled, List.drop_left, List.append_assoc]
    · simp only [source, ← whole, List.append_assoc, List.nil_append]

theorem length_rest_lt_of_next {lexer after : Lexer} {token : Token}
    (read : lexer.next = (.token token, after)) : after.rest.length < lexer.rest.length := by
  have shorter := (List.dropWhile_sublist isWhitespace (l := lexer.rest)).length_le
  unfold next at read
  dsimp only at read
  split at read
  · simp at read
  · rename_i first rest same
    split at read
    · rename_i lexeme scanned
      have nonempty := List.length_pos_iff.2 (spelling_ne_nil_of_scan scanned)
      simp only [Prod.mk.injEq, Outcome.token.injEq] at read
      rw [← read.2, List.length_drop]
      simp only [same, List.length_cons] at shorter ⊢
      omega
    · simp at read

end Lexer

/-- The tokens of a text with their places, and how the text ends. -/
inductive TokenStream where
  | endOfInput (position : Position)
  | failure (error : LexicalError)
  | cons (token : Token) (position : Position) (rest : TokenStream)
  deriving DecidableEq, Repr

namespace TokenStream

def ofLexer (lexer : Lexer) : TokenStream :=
  match _read : lexer.next with
  | (.token token, after) => .cons token after.position (ofLexer after)
  | (.endOfInput, after) => .endOfInput after.position
  | (.failure fault, after) => .failure ⟨fault, after.position⟩
termination_by lexer.rest.length
decreasing_by exact Lexer.length_rest_lt_of_next _read

def ofSource (source : List Char) : TokenStream := ofLexer (.start source)

/-- Passes over some tokens. The end and a failure are never passed, since a lexer that has come to
them stays there. -/
def drop : Nat → TokenStream → TokenStream
  | count + 1, cons _ _ rest => rest.drop count
  | _, stream => stream

end TokenStream

end TableQuery
