import TableQuery.Delimited.Dataset
import TableQuery.Proofs.Outcome
import TableQuery.Proofs.Row

/-!
The rows of a dataset, in terms of the records that they were read from. Under a name stands the
last cell of the record whose header is that name; a header is repeated or lies beyond the end of a
short record without any further rule.
-/

namespace TableQuery

namespace Delimited

def readRecords (options : ReadOptions) (bytes : List UInt8) :
    Except ReadError (List String × List (List String)) :=
  match splitRecords options.delimiter bytes with
  | [] => .error .noHeader
  | header :: records => do
      let headers ← readHeaders header
      let cells ← (records.zipIdx 1).mapM fun (raw, record) => readCells options record raw
      return (headers, cells)

/-- The value of the last cell of a record that stands under this header. With a repeated header it
is the last one within the record, which is short of cells perhaps. -/
def cellValue (headers record : List String) (name : String) : Value :=
  match ((headers.zip record).filter fun column => column.1 = name).getLast? with
  | some column => .coerce column.2
  | none => .absent

def rowOf (headers record : List String) : Row :=
  .ofList (headers.zip (record.map Value.coerce))

theorem map_fst_zip_take {Other : Type} (headers : List String) (others : List Other) :
    (headers.zip others).map Prod.fst = headers.take others.length := by
  induction headers generalizing others with
  | nil => simp
  | cons header headers induction =>
      cases others with
      | nil => rfl
      | cons other others =>
          rw [List.zip_cons_cons, List.map_cons, induction]
          rfl

theorem names_row_of (headers record : List String) :
    (rowOf headers record).names = firstMentions (headers.take record.length) := by
  rw [rowOf, Row.names_of_list, map_fst_zip_take, List.length_map]

theorem values_of_zip_coerce (headers record : List String) (name : String) :
    valuesOf name (headers.zip (record.map Value.coerce)) =
      ((headers.zip record).filter fun column => column.1 = name).map
        fun column => Value.coerce column.2 := by
  rw [valuesOf, List.zip_map_right, List.filter_map, List.map_map]
  rfl

theorem get_row_of (headers record : List String) (name : String) :
    (rowOf headers record).get name = cellValue headers record name := by
  rw [rowOf, Row.get_of_list, values_of_zip_coerce, List.getLast?_map, cellValue]
  cases ((headers.zip record).filter fun column => column.1 = name).getLast? <;> rfl

theorem exists_cells_of_read_row {options : ReadOptions} {headers : List String} {raw : RawRecord}
    {record : Nat} {row : Row} (read : readRow options headers raw record = .ok row) :
    ∃ cells, readCells options record raw = .ok cells ∧ row = rowOf headers cells := by
  obtain ⟨cells, found, read⟩ := exists_of_bind_eq_ok read
  refine ⟨cells, found, ?_⟩
  split at read
  · cases read
  · cases read
    rfl

/-- A dataset holds one row for each data record, in order. -/
theorem exists_records_of_read {options : ReadOptions} {bytes : List UInt8} {dataset : Dataset}
    (loaded : Dataset.read options bytes = .ok dataset) :
    ∃ records, readRecords options bytes = .ok (dataset.headers, records) ∧
      dataset.rows = records.map (rowOf dataset.headers) := by
  unfold Dataset.read at loaded
  split at loaded
  · cases loaded
  · rename_i header raws split
    obtain ⟨headers, found, loaded⟩ := exists_of_bind_eq_ok loaded
    obtain ⟨rows, read, loaded⟩ := exists_of_bind_eq_ok loaded
    cases loaded
    obtain ⟨records, readPlain, same⟩ :=
      exists_mapM_of_mapM (fun _ _ => exists_cells_of_read_row) read
    refine ⟨records, ?_, same⟩
    have whole : readRecords options bytes = (do
        let headers ← readHeaders header
        let cells ← (raws.zipIdx 1).mapM fun (raw, record) => readCells options record raw
        return (headers, cells)) := by
      rw [readRecords, split]
    rw [whole, found, readPlain]
    rfl

end Delimited

end TableQuery
