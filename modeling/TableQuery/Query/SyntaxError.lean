import TableQuery.Query.TokenStream

/-!
Why a text is not a query. The message shows the line where reading stopped, a caret under the
place, and what the grammar would have accepted there.
-/

namespace TableQuery

inductive SyntaxFault where
  /-- No token of the wanted kinds stands there; `none` was found at the end of the text. -/
  | unexpected (expected : List Symbol) (found : Option Token)
  | lexical (fault : LexicalFault)
  deriving DecidableEq, Repr

structure SyntaxError where
  source : List Char
  position : Position
  fault : SyntaxFault
  deriving DecidableEq, Repr

def withoutReturn (line : List Char) : List Char :=
  if line.getLast? = some '\r' then line.dropLast else line

/-- The first line of a text. A carriage return belongs to the line break only before a line feed,
so the last line of a text keeps one at its end. -/
def firstLine (text : List Char) : List Char :=
  let line := text.takeWhile (· != '\n')
  if line.length < text.length then withoutReturn line else line

def lineText : Nat → List Char → List Char
  | 0, text => firstLine text
  | index + 1, text => lineText index ((text.dropWhile (· != '\n')).drop 1)

/-- `a, b or c`. -/
def alternatives : List String → String
  | [] => "nothing"
  | [only] => only
  | [first, last] => first ++ " or " ++ last
  | first :: rest => first ++ ", " ++ alternatives rest

namespace SyntaxFault

def expected : SyntaxFault → List Symbol
  | unexpected expected _ => expected
  | lexical _ => []

def foundText : SyntaxFault → String
  | unexpected _ (some token) => token.text
  | unexpected _ none => Symbol.endOfInput.text
  | lexical (.unexpectedCharacter character) => "'" ++ character.toString ++ "'"
  | lexical .unterminatedString => "unterminated string literal"

def explanation : SyntaxFault → String
  | lexical (.unexpectedCharacter character) =>
      "Unexpected character '" ++ character.toString ++ "'"
  | lexical .unterminatedString => "Unterminated string literal, missing closing '`'"
  | fault => "Expected " ++ alternatives (fault.expected.map Symbol.text) ++ ", found " ++
      fault.foundText

end SyntaxFault

namespace SyntaxError

def gutter (line : Nat) : String := "> " ++ toString line ++ " | "

def excerpt (error : SyntaxError) : String :=
  let line := error.position.line
  let indent := (gutter line).length + (error.position.column - 1)
  error.position.text ++ ":\n" ++ gutter line ++
    String.ofList (lineText (line - 1) error.source) ++ "\n" ++
    String.ofList (List.replicate indent ' ') ++ "^"

def message (error : SyntaxError) : String := error.excerpt ++ "\n" ++ error.fault.explanation

end SyntaxError

end TableQuery
