import TableQuery.Text.Utf8
import TableQuery.Row
import TableQuery.Delimited.Record

/-!
Datasets from delimited bytes. The first record gives the headers, and each later record becomes a
row whose cells are paired with the headers from the left. A shorter record lacks the last fields, a
longer one is refused, and the first record at fault ends the reading.
-/

namespace TableQuery

structure Dataset where
  headers : List String
  rows : List Row
  deriving DecidableEq

def Dataset.hasField (dataset : Dataset) (name : String) : Bool := dataset.headers.contains name

/-- How to read delimited bytes. There is no option for headers, which are always trimmed, since a
query could not name a field with white space at its ends. -/
structure ReadOptions where
  delimiter : UInt8
  trim : Bool
  deriving DecidableEq, Repr

/-- A cell that is not UTF-8: its record and the place of the record, its index in the record, and
the number of sound bytes before the fault. -/
structure InvalidCell where
  record : Nat
  start : Delimited.Mark
  field : Nat
  index : Nat
  deriving DecidableEq, Repr

/-- A delimiter is one byte, so only an ASCII character can be one. -/
def delimiterByte? (character : Char) : Option UInt8 :=
  if character.toNat < 128 then some (UInt8.ofNat character.toNat) else none

inductive ReadError where
  | invalidCell (cell : InvalidCell)
  | tooManyCells (line expected found : Nat)
  | noHeader
  deriving DecidableEq, Repr

def InvalidCell.text (cell : InvalidCell) : String :=
  let field := toString cell.field
  "CSV parse error: record " ++ toString cell.record ++ " (line " ++ toString cell.start.line ++
    ", field: " ++ field ++ ", byte: " ++ toString cell.start.byte ++
    "): invalid utf-8: invalid UTF-8 in field " ++ field ++ " near byte index " ++
    toString cell.index

def malformed (reason : String) : String := "malformed delimited data: " ++ reason

def ReadError.message : ReadError → String
  | invalidCell cell => malformed cell.text
  | tooManyCells line expected found =>
      "line " ++ toString line ++ ": expected at most " ++ toString expected ++
        " fields, found " ++ toString found
  | noHeader => "input has no header line"

namespace Delimited

def isBlankByte (byte : UInt8) : Bool :=
  byte == 32 || byte == 9 || byte == lineFeed || byte == 12 || byte == carriageReturn

def trimBytes (bytes : List UInt8) : List UInt8 :=
  ((bytes.dropWhile isBlankByte).reverse.dropWhile isBlankByte).reverse

def decodeCell (record : Nat) (start : Mark) (cell : List UInt8) (field : Nat) :
    Except ReadError (List Char) :=
  (Utf8.decode cell).mapError fun index => .invalidCell ⟨record, start, field, index⟩

def decodeCells (record : Nat) (start : Mark) (cells : List (List UInt8)) :
    Except ReadError (List (List Char)) :=
  cells.zipIdx.mapM fun (cell, field) => decodeCell record start cell field

def readHeaders (raw : RawRecord) : Except ReadError (List String) := do
  let cells ← decodeCells 0 raw.start raw.cells
  return cells.map fun cell => String.ofList (trim cell)

/-- ASCII white space goes before a cell is decoded, and all other white space after it. So the
place of a fault inside a cell is counted from what is left of the cell. -/
def readCells (options : ReadOptions) (record : Nat) (raw : RawRecord) :
    Except ReadError (List String) := do
  if options.trim then
    let cells ← decodeCells record raw.start (raw.cells.map trimBytes)
    return cells.map fun cell => String.ofList (trim cell)
  else
    let cells ← decodeCells record raw.start raw.cells
    return cells.map String.ofList

def readRow (options : ReadOptions) (headers : List String) (raw : RawRecord) (record : Nat) :
    Except ReadError Row := do
  let cells ← readCells options record raw
  if headers.length < cells.length then
    throw (.tooManyCells raw.start.line headers.length cells.length)
  return .ofList (headers.zip (cells.map Value.coerce))

end Delimited

open Delimited in
def Dataset.read (options : ReadOptions) (bytes : List UInt8) : Except ReadError Dataset :=
  match splitRecords options.delimiter bytes with
  | [] => .error .noHeader
  | header :: records => do
      let headers ← readHeaders header
      let rows ← (records.zipIdx 1).mapM fun (raw, record) => readRow options headers raw record
      return ⟨headers, rows⟩

end TableQuery
