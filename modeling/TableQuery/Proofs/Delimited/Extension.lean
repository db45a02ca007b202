import TableQuery.Proofs.Delimited.Boundary
import TableQuery.Proofs.Delimited.Records

/-!
Loading bytes that are extended behind a record boundary. What has been loaded stays, a fault that
has been found stays, and the new records are loaded as they would be directly behind the header.
-/

namespace TableQuery

/-- What is wrong with a record, wherever the record stands. Two readings of the same record in
different places fail with the same fault. -/
inductive ReadFault where
  | invalidCell (field index : Nat)
  | tooManyCells (expected found : Nat)
  | noHeader
  deriving DecidableEq, Repr

def ReadError.fault : ReadError → ReadFault
  | invalidCell cell => .invalidCell cell.field cell.index
  | tooManyCells _ expected found => .tooManyCells expected found
  | noHeader => .noHeader

namespace Delimited

section Faults

variable (options : ReadOptions) (headers : List String)

theorem fault_decode_cells (record other : Nat) (start otherStart : Mark)
    (cells : List (List UInt8)) :
    (decodeCells record start cells).mapError ReadError.fault =
      (decodeCells other otherStart cells).mapError ReadError.fault := by
  rw [decodeCells, decodeCells, mapError_mapM, mapError_mapM]
  congr 1
  funext ⟨cell, field⟩
  dsimp only [decodeCell]
  rw [mapError_mapError, mapError_mapError]
  rfl

theorem fault_read_cells (record otherRecord : Nat) {raw other : RawRecord}
    (same : raw.cells = other.cells) :
    (readCells options record raw).mapError ReadError.fault =
      (readCells options otherRecord other).mapError ReadError.fault := by
  rw [readCells, readCells, same]
  split
  · rw [mapError_bind, mapError_bind, fault_decode_cells]
  · rw [mapError_bind, mapError_bind, fault_decode_cells]

/-- A row depends on the cells of its record, and on its place only by the place of a fault. -/
theorem fault_read_row (record otherRecord : Nat) {raw other : RawRecord}
    (same : raw.cells = other.cells) :
    (readRow options headers raw record).mapError ReadError.fault =
      (readRow options headers other otherRecord).mapError ReadError.fault := by
  rw [readRow, readRow, mapError_bind, mapError_bind, fault_read_cells options _ _ same]
  congr 1
  funext cells
  split <;> rfl

def readRows (first : Nat) (raws : List RawRecord) : Except ReadError (List Row) :=
  (raws.zipIdx first).mapM fun (raw, record) => readRow options headers raw record

theorem read_rows_cons (first : Nat) (raw : RawRecord) (raws : List RawRecord) :
    readRows options headers first (raw :: raws) =
      readRow options headers raw first >>= fun row =>
        readRows options headers (first + 1) raws >>= fun rows => .ok (row :: rows) := by
  rw [readRows, List.zipIdx_cons, List.mapM_cons]
  rfl

theorem fault_read_rows {raws others : List RawRecord}
    (same : raws.map RawRecord.cells = others.map RawRecord.cells) (first otherFirst : Nat) :
    (readRows options headers first raws).mapError ReadError.fault =
      (readRows options headers otherFirst others).mapError ReadError.fault := by
  induction raws generalizing others first otherFirst with
  | nil =>
      rw [List.map_eq_nil_iff.1 same.symm]
      rfl
  | cons raw raws induction =>
      cases others with
      | nil => cases same
      | cons other others =>
          rw [List.map_cons, List.map_cons, List.cons.injEq] at same
          rw [read_rows_cons, read_rows_cons, mapError_bind, mapError_bind,
            fault_read_row options headers first otherFirst same.1]
          congr 1
          funext row
          rw [mapError_bind, mapError_bind, induction same.2 (first + 1) (otherFirst + 1)]

theorem read_rows_append (first : Nat) (raws later : List RawRecord) :
    readRows options headers first (raws ++ later) =
      readRows options headers first raws >>= fun rows =>
        readRows options headers (first + raws.length) later >>= fun more =>
          .ok (rows ++ more) := by
  rw [readRows, List.zipIdx_append, List.mapM_append]
  rfl

theorem read_eq_of_split_records {bytes : List UInt8} {header : RawRecord} {raws : List RawRecord}
    (split : splitRecords options.delimiter bytes = header :: raws) :
    Dataset.read options bytes =
      readHeaders header >>= fun headers =>
        readRows options headers 1 raws >>= fun rows => .ok ⟨headers, rows⟩ := by
  rw [Dataset.read, split]
  rfl

end Faults

/-- What becomes of a loaded dataset, or of a failure to load it, when more bytes follow: a failure
stays, and a dataset gets the new rows or the fault of the first bad one. -/
structure Extends (options : ReadOptions) (bytes header rest : List UInt8) : Prop where
  /-- A fault is reported as it was, its place included. -/
  failed : ∀ error, Dataset.read options bytes = .error error →
    Dataset.read options (bytes ++ rest) = .error error
  loaded : ∀ dataset more, Dataset.read options bytes = .ok dataset →
    Dataset.read options (header ++ rest) = .ok more →
    more.headers = dataset.headers ∧
      Dataset.read options (bytes ++ rest) = .ok ⟨dataset.headers, dataset.rows ++ more.rows⟩
  refused : ∀ dataset error, Dataset.read options bytes = .ok dataset →
    Dataset.read options (header ++ rest) = .error error →
    ∃ other, Dataset.read options (bytes ++ rest) = .error other ∧ other.fault = error.fault

section Splits

variable {options : ReadOptions} {bytes header rest : List UInt8}

theorem extends_of_error {error : ReadError} (found : Dataset.read options bytes = .error error)
    (kept : Dataset.read options (bytes ++ rest) = .error error) :
    Extends options bytes header rest := by
  have unloaded : ∀ dataset, Dataset.read options bytes ≠ .ok dataset := by
    intro dataset loaded
    cases found.symm.trans loaded
  constructor
  · intro other alsoFound
    cases found.symm.trans alsoFound
    exact kept
  · exact fun dataset _ loaded => absurd loaded (unloaded dataset)
  · exact fun dataset _ loaded => absurd loaded (unloaded dataset)

theorem extends_of_rows {headers : List String} {rows : List Row}
    {later direct : Except ReadError (List Row)}
    (loaded : Dataset.read options bytes = .ok ⟨headers, rows⟩)
    (extended : Dataset.read options (bytes ++ rest) =
      later >>= fun more => .ok ⟨headers, rows ++ more⟩)
    (directly : Dataset.read options (header ++ rest) = direct >>= fun more => .ok ⟨headers, more⟩)
    (faults : later.mapError ReadError.fault = direct.mapError ReadError.fault) :
    Extends options bytes header rest := by
  constructor
  · intro error failed
    cases loaded.symm.trans failed
  · intro dataset more alsoLoaded moreLoaded
    cases loaded.symm.trans alsoLoaded
    obtain ⟨moreRows, found, done⟩ := exists_of_bind_eq_ok (directly.symm.trans moreLoaded)
    cases done
    rw [found] at faults
    rw [bind_eq_of_eq_ok (eq_ok_of_mapError faults)] at extended
    exact ⟨rfl, extended⟩
  · intro dataset error _ refused
    cases direct with
    | ok more => cases directly.symm.trans refused
    | error fault =>
        cases directly.symm.trans refused
        obtain ⟨other, found, sameFault⟩ := exists_of_mapError_eq_error faults
        rw [found] at extended
        exact ⟨other, extended, sameFault⟩

theorem extends_of_split_records {first : RawRecord} {records later others : List RawRecord}
    (split : splitRecords options.delimiter bytes = first :: records)
    (extended : splitRecords options.delimiter (bytes ++ rest) = first :: (records ++ later))
    (direct : splitRecords options.delimiter (header ++ rest) = first :: others)
    (same : later.map RawRecord.cells = others.map RawRecord.cells) :
    Extends options bytes header rest := by
  have readBytes := read_eq_of_split_records options split
  have readExtended := read_eq_of_split_records options extended
  have readDirect := read_eq_of_split_records options direct
  cases headersRead : readHeaders first with
  | error error =>
      rw [headersRead] at readBytes readExtended
      exact extends_of_error readBytes readExtended
  | ok headers =>
      rw [bind_eq_of_eq_ok headersRead] at readBytes readExtended readDirect
      rw [read_rows_append] at readExtended
      cases rowsRead : readRows options headers 1 records with
      | error error =>
          rw [rowsRead] at readBytes readExtended
          exact extends_of_error readBytes readExtended
      | ok rows =>
          rw [bind_eq_of_eq_ok rowsRead] at readBytes readExtended
          rw [bind_assoc] at readExtended
          exact extends_of_rows readBytes readExtended readDirect
            (fault_read_rows options headers same (1 + records.length) 1)

end Splits

/-- Reading goes on behind a record boundary as it would behind the header. -/
theorem read_append_of_ends_record {options : ReadOptions}
    (plain : IsPlainDelimiter options.delimiter) {bytes : List UInt8}
    (ends : EndsRecord options.delimiter bytes)
    (recorded : splitRecords options.delimiter bytes ≠ []) :
    (∃ header, IsHeaderPart options.delimiter bytes header) ∧
      ∀ header, IsHeaderPart options.delimiter bytes header → ∀ rest,
        Extends options bytes header rest := by
  refine ⟨exists_header_part plain ends recorded, ?_⟩
  rintro header ⟨⟨body, rfl⟩, headerEnds, single⟩ rest
  rcases exists_split_records_append plain headerEnds body with ⟨records, split, -⟩
  rcases exists_split_records_append plain ends rest with ⟨later, extended, cells⟩
  rcases exists_split_records_append plain headerEnds rest with ⟨others, direct, otherCells⟩
  rcases List.length_eq_one_iff.1 single with ⟨first, alone⟩
  rw [alone] at split direct
  rw [split] at extended
  exact extends_of_split_records split extended direct (cells.trans otherCells.symm)

/-- A quoted line break is no boundary, and the carriage return at the end may still be followed by
its line feed. -/
theorem read_append_of_ends_record_pending_feed :
    let options : ReadOptions := ⟨44, false⟩
    let bytes := Utf8.encode "a,b\r\n1,\"x\ny\"\r".toList
    let one := Row.ofList [("a", .coerce "1"), ("b", .string "x\ny")]
    let two := Row.ofList [("a", .coerce "2")]
    Dataset.read options (bytes ++ Utf8.encode "\n2\n".toList) = .ok ⟨["a", "b"], [one, two]⟩ ∧
      ∃ error, Dataset.read options (bytes ++ Utf8.encode "\n3,4,5".toList) = .error error ∧
        error.fault = .tooManyCells 2 3 := by
  intro options bytes one two
  let header := Utf8.encode "a,b\r\n".toList
  have plain : IsPlainDelimiter options.delimiter := ⟨by decide, by decide, by decide⟩
  have ends : EndsRecord options.delimiter bytes :=
    ⟨bytes.dropLast, carriageReturn, by decide +kernel, .inl rfl, by decide +kernel⟩
  have recorded : splitRecords options.delimiter bytes ≠ [] := by decide +kernel
  have headerEnds : EndsRecord options.delimiter header :=
    ⟨header.dropLast, lineFeed, by decide +kernel, .inr rfl, by decide +kernel⟩
  have part : IsHeaderPart options.delimiter bytes header :=
    ⟨List.isPrefixOf_iff_prefix.1 (by decide +kernel), headerEnds, by decide +kernel⟩
  have extending := (read_append_of_ends_record plain ends recorded).2 header part
  have loaded : Dataset.read options bytes = .ok ⟨["a", "b"], [one]⟩ :=
    eq_ok_of_toOption (by decide +kernel)
  constructor
  · have direct : Dataset.read options (header ++ Utf8.encode "\n2\n".toList) =
        .ok ⟨["a", "b"], [two]⟩ := eq_ok_of_toOption (by decide +kernel)
    exact ((extending _).loaded _ _ loaded direct).2
  · have direct : Dataset.read options (header ++ Utf8.encode "\n3,4,5".toList) =
        .error (.tooManyCells 1 2 3) := eq_error_of_fault? (by decide +kernel)
    exact (extending _).refused _ _ loaded direct

end Delimited

end TableQuery
