import TableQuery.Row

/-!
Rows as a text table: one column per header, as wide as its widest cell, and below the rows their
number. Colour wraps the header line and the count and nothing else.
-/

namespace TableQuery.Table

inductive Colour where
  | red
  | green
  | blue
  deriving DecidableEq, Repr

def escapeCharacter : Char := '\x1b'

def Colour.code : Colour → List Char
  | red => escapeCharacter :: "[31m".toList
  | green => escapeCharacter :: "[32m".toList
  | blue => escapeCharacter :: "[34m".toList

def resetCode : List Char := escapeCharacter :: "[0m".toList

def paint (coloured : Bool) (colour : Colour) (text : List Char) : List Char :=
  if coloured then colour.code ++ text ++ resetCode else text

structure Column where
  header : List Char
  width : Nat
  /-- The text of the column in a row. -/
  cell : Row → List Char

def column (rows : List Row) (header : String) : Column :=
  let cell (row : Row) := (row.get header).text.toList
  let widths := rows.map fun row => (cell row).length
  ⟨header.toList, widths.foldl max header.toList.length, cell⟩

def pad (width : Nat) (text : List Char) : List Char :=
  ' ' :: text ++ List.replicate (width - text.length) ' ' ++ [' ']

def line (cells : List (List Char)) : List Char := ['|'].intercalate cells

def headerLine (columns : List Column) : List Char :=
  line (columns.map fun column => pad column.width column.header)

def rowLine (columns : List Column) (row : Row) : List Char :=
  line (columns.map fun column => pad column.width (column.cell row))

def countText (count : Nat) : List Char :=
  if count = 1 then "1 row found".toList else Nat.toDigits 10 count ++ " rows found".toList

def lines (coloured : Bool) (headers : List String) (rows : List Row) : List (List Char) :=
  let columns := headers.map (column rows)
  let body :=
    if headers.isEmpty then []
    else paint coloured .blue (headerLine columns) :: rows.map (rowLine columns)
  let colour := if rows.isEmpty then Colour.red else Colour.green
  body ++ [' ' :: paint coloured colour (countText rows.length)]

def render (coloured : Bool) (headers : List String) (rows : List Row) : String :=
  String.ofList ((lines coloured headers rows).flatMap (· ++ ['\n']))

end TableQuery.Table
