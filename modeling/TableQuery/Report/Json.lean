import TableQuery.Row

/-!
Rows as a JSON array of objects, members in the order of the fields. Absent values, NaN and the
infinities are null; whole numbers that fit into 64 signed bits are written as integers, all other
numbers with their shortest digits.
-/

namespace TableQuery.Json

/-- Compact text has no white space, indented text one member a line and two spaces a level. -/
inductive Layout where
  | compact
  | indented
  deriving DecidableEq, Repr

def escape (character : Char) : List Char :=
  if character = '"' then ['\\', '"']
  else if character = '\\' then ['\\', '\\']
  else if character = '\x08' then ['\\', 'b']
  else if character = '\x0c' then ['\\', 'f']
  else if character = '\n' then ['\\', 'n']
  else if character = '\r' then ['\\', 'r']
  else if character = '\t' then ['\\', 't']
  else if character.toNat < 32 then
    "\\u00".toList ++ [Nat.digitChar (character.toNat / 16), Nat.digitChar (character.toNat % 16)]
  else [character]

def string (text : String) : List Char := '"' :: text.toList.flatMap escape ++ ['"']

def fitsInteger (negative : Bool) (whole : Nat) : Bool :=
  if negative then whole ≤ 9223372036854775808 else whole < 9223372036854775808

def integer (negative : Bool) (whole : Nat) : List Char :=
  withSign (negative && whole != 0) (Nat.toDigits 10 whole)

/-- Numbers from `0.00001` up to sixteen places before the point are written in full, and all others
with a power of ten. -/
def shortDecimal (decimal : Decimal) : List Char :=
  if -5 ≤ decimal.leadingExponent ∧ decimal.leadingExponent < 16 then decimal.positional
  else decimal.scientific

def nullText : List Char := "null".toList

def number : Binary64 → List Char
  | .nan | .infinite _ => nullText
  | .finite negative magnitude =>
      if magnitude.IsWhole ∧ fitsInteger negative magnitude.wholePart then
        integer negative magnitude.wholePart
      else withSign negative (shortDecimal (magnitude.shortest .toEven))

def value : Value → List Char
  | .number double => number double
  | .string text => string text
  | .absent => nullText

namespace Layout

def lineBreak (level : Nat) : Layout → List Char
  | compact => []
  | indented => '\n' :: List.replicate (2 * level) ' '

def colon : Layout → List Char
  | compact => [':']
  | indented => [':', ' ']

/-- Items between brackets. Nothing between brackets stays on one line in either layout. -/
def enclose (layout : Layout) (level : Nat) (opening closing : Char) (items : List (List Char)) :
    List Char :=
  if items.isEmpty then [opening, closing]
  else
    let separator := ',' :: layout.lineBreak (level + 1)
    opening :: layout.lineBreak (level + 1) ++ separator.intercalate items ++
      layout.lineBreak level ++ [closing]

end Layout

def field (layout : Layout) (name : String) (content : Value) : List Char :=
  string name ++ layout.colon ++ value content

def row (layout : Layout) (row : Row) : List Char :=
  layout.enclose 1 '\x7b' '\x7d' (row.fields.map fun (name, content) => field layout name content)

def rows (layout : Layout) (rows : List Row) : List Char :=
  layout.enclose 0 '[' ']' (rows.map (row layout))

def render (layout : Layout) (table : List Row) : String := String.ofList (rows layout table)

end TableQuery.Json
