/-!
Splitting delimited bytes into records of cells. A cell that opens with a quote runs to the closing
quote and may hold delimiters and line breaks, a doubled quote inside it standing for one. A record
ends at a line feed, a carriage return, or both in this order; empty lines are no records.
-/

namespace TableQuery.Delimited

def quoteByte : UInt8 := 34
def lineFeed : UInt8 := 10
def carriageReturn : UInt8 := 13

/-- A place in the input: the bytes before it, and its line counted from one. Only line feeds count
as lines, although a carriage return alone ends a record, too. -/
structure Mark where
  byte : Nat
  line : Nat
  deriving DecidableEq, Repr

def Mark.past (mark : Mark) (byte : UInt8) : Mark :=
  ⟨mark.byte + 1, if byte = lineFeed then mark.line + 1 else mark.line⟩

/-- The cells of one record as raw bytes. The record starts where the one before it ended, so the
line feed of a two-byte line break and the empty lines in between belong to it. -/
structure RawRecord where
  start : Mark
  cells : List (List UInt8)
  deriving DecidableEq, Repr

inductive Phase where
  | recordStart
  | afterReturn
  | cellStart
  | bare
  | quoted
  | afterQuote
  deriving DecidableEq, Repr

inductive Action where
  | skip
  | keep
  | endCell
  | endRecord
  deriving DecidableEq, Repr

namespace Phase

/-- A line break after a cell: a carriage return may still be followed by its line feed. -/
def afterBreak (byte : UInt8) : Phase := if byte = carriageReturn then afterReturn else recordStart

/-- Outside quotes the delimiter is looked for before a line break, so a line break may be given as
the delimiter, and then it ends a cell and no record. -/
def outside (delimiter byte : UInt8) : Phase × Action :=
  if byte = delimiter then (cellStart, .endCell)
  else if byte = carriageReturn ∨ byte = lineFeed then (afterBreak byte, .endRecord)
  else (bare, .keep)

def openCell (delimiter byte : UInt8) : Phase × Action :=
  if byte = quoteByte then (quoted, .skip) else outside delimiter byte

def openRecord (delimiter byte : UInt8) : Phase × Action :=
  if byte = carriageReturn ∨ byte = lineFeed then (recordStart, .skip)
  else openCell delimiter byte

def react (delimiter byte : UInt8) : Phase → Phase × Action
  | recordStart => openRecord delimiter byte
  | afterReturn =>
      if byte = lineFeed then (recordStart, .skip) else openRecord delimiter byte
  | cellStart => openCell delimiter byte
  | bare => outside delimiter byte
  | quoted => if byte = quoteByte then (afterQuote, .skip) else (quoted, .keep)
  | afterQuote => if byte = quoteByte then (quoted, .keep) else outside delimiter byte

end Phase

/-- The record being read. The bytes of its last cell and its finished cells are held in reverse, so
that each byte is added in front and nothing is copied. -/
structure Reader where
  phase : Phase
  start : Mark
  here : Mark
  cell : List UInt8
  cells : List (List UInt8)
  deriving DecidableEq, Repr

namespace Reader

def startAt (start here : Mark) (phase : Phase) : Reader := ⟨phase, start, here, [], []⟩

def record (reader : Reader) : RawRecord :=
  ⟨reader.start, (reader.cell.reverse :: reader.cells).reverse⟩

def feed (delimiter : UInt8) (reader : Reader) (byte : UInt8) : Reader × Option RawRecord :=
  let here := reader.here.past byte
  match reader.phase.react delimiter byte with
  | (phase, .skip) => ({ reader with phase, here }, none)
  | (phase, .keep) => ({ reader with phase, here, cell := byte :: reader.cell }, none)
  | (phase, .endCell) =>
      ({ reader with phase, here, cell := [], cells := reader.cell.reverse :: reader.cells }, none)
  | (phase, .endRecord) => (startAt here here phase, some reader.record)

/-- At the end of the input a record that has begun is complete, whether in quotes or not. -/
def finish (reader : Reader) : List RawRecord :=
  match reader.phase with
  | .recordStart | .afterReturn => []
  | _ => [reader.record]

def records (delimiter : UInt8) (reader : Reader) : List UInt8 → List RawRecord
  | [] => reader.finish
  | byte :: rest =>
      match reader.feed delimiter byte with
      | (next, none) => next.records delimiter rest
      | (next, some record) => record :: next.records delimiter rest

end Reader

def byteOrderMark : List UInt8 := [0xEF, 0xBB, 0xBF]

/-- All records. A byte order mark at the very start is passed over, but its bytes are counted in
the places that errors report. -/
def splitRecords (delimiter : UInt8) (bytes : List UInt8) : List RawRecord :=
  let origin : Mark := ⟨0, 1⟩
  if byteOrderMark.isPrefixOf bytes then
    (Reader.startAt origin ⟨byteOrderMark.length, 1⟩ .recordStart).records delimiter
      (bytes.drop byteOrderMark.length)
  else (Reader.startAt origin origin .recordStart).records delimiter bytes

end TableQuery.Delimited
