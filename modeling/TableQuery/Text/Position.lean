/-!
Places in a text. Offsets count bytes of UTF-8 from zero, lines and columns count from one, columns
count characters, and only a line feed starts a line.
-/

namespace TableQuery

structure Position where
  offset : Nat
  line : Nat
  column : Nat
  deriving DecidableEq, Repr

def takeBytes : Nat → List Char → List Char
  | _, [] => []
  | count, character :: rest =>
      if character.utf8Size ≤ count then
        character :: takeBytes (count - character.utf8Size) rest
      else []

def byteLength : List Char → Nat
  | [] => 0
  | character :: rest => character.utf8Size + byteLength rest

def lastLine (text : List Char) : List Char := (text.reverse.takeWhile (· != '\n')).reverse

namespace Position

def after (before : List Char) : Position where
  offset := byteLength before
  line := before.count '\n' + 1
  column := (lastLine before).length + 1

/-- The place of a byte in a text. An offset past the end keeps its number and takes the line and
column of the end. -/
def locate (source : List Char) (offset : Nat) : Position :=
  { after (takeBytes offset source) with offset }

def text (position : Position) : String :=
  "Line " ++ toString position.line ++ ", col " ++ toString position.column

end Position

end TableQuery
