import TableQuery.Proofs.Delimited.Extension
import TableQuery.Proofs.Delimited.RoundTrip

/-!
What trimming does to a dataset. The text of a cell loses the white space at its two ends, and
nothing else changes: a cell is a number with or without white space around it, the blanks that go
before a cell is decoded are sound by themselves, and headers are trimmed in any case. Of a fault
only the place inside the cell can differ, as it is counted from what is left of the cell.
-/

namespace TableQuery

namespace Value

/-- A number stays as it is, and a text loses the white space at its ends. Nothing else can become
of a loaded value when its cell is trimmed first. -/
def trimText : Value → Value
  | string text => string (trimmed text)
  | other => other

theorem coerce_trimmed (text : String) : coerce (trimmed text) = (coerce text).trimText := by
  have same : trim (trimmed text).toList = trim text.toList := by
    rw [trimmed, String.toList_ofList, trim_trim]
  rw [coerce, coerce, same]
  cases readNumber? (trim text.toList) <;> rfl

end Value

namespace Row

def trimField (field : Field) : Field := (field.1, field.2.trimText)

theorem field_names_map_trim_field (fields : List Field) :
    fieldNames (fields.map trimField) = fieldNames fields := by
  rw [fieldNames, fieldNames, List.map_map]
  rfl

def trimTexts (row : Row) : Row where
  fields := row.fields.map trimField
  distinct_names := by
    rw [field_names_map_trim_field]
    exact row.distinct_names

theorem map_trim_field_insert_field (name : String) (value : Value) (fields : List Field) :
    (insertField name value fields).map trimField =
      insertField name value.trimText (fields.map trimField) := by
  induction fields with
  | nil => rfl
  | cons field rest induction =>
      simp only [insertField, List.map_cons, trimField]
      split
      · rfl
      · rw [List.map_cons, induction]
        rfl

theorem trim_texts_insert (row : Row) (name : String) (value : Value) :
    (row.insert name value).trimTexts = row.trimTexts.insert name value.trimText :=
  eq_of_fields (map_trim_field_insert_field name value row.fields)

theorem trim_texts_of_list (fields : List Field) :
    (ofList fields).trimTexts = ofList (fields.map trimField) := by
  rw [ofList, ofList, List.foldl_map]
  exact (List.foldl_hom trimTexts fun row field =>
    (trim_texts_insert row field.1 field.2).symm).symm

end Row

def Dataset.trimTexts (dataset : Dataset) : Dataset :=
  ⟨dataset.headers, dataset.rows.map Row.trimTexts⟩

def ReadError.unindexed : ReadError → ReadError
  | invalidCell cell => invalidCell { cell with index := 0 }
  | other => other

/-- One attempt gives the changed result of the other one, or both fail for the same reason. -/
inductive Alike {Plain Changed : Type} (change : Plain → Changed) :
    Except ReadError Changed → Except ReadError Plain → Prop
  | ok (plain : Plain) : Alike change (.ok (change plain)) (.ok plain)
  | error {changed plain : ReadError} (same : changed.unindexed = plain.unindexed) :
      Alike change (.error changed) (.error plain)

namespace Alike

variable {Plain Changed Next ChangedNext Item : Type} {change : Plain → Changed}

theorem bind {nextChange : Next → ChangedNext} {changed : Except ReadError Changed}
    {plain : Except ReadError Plain} {changedNext : Changed → Except ReadError ChangedNext}
    {plainNext : Plain → Except ReadError Next} (alike : Alike change changed plain)
    (next : ∀ result, Alike nextChange (changedNext (change result)) (plainNext result)) :
    Alike nextChange (changed >>= changedNext) (plain >>= plainNext) := by
  cases alike with
  | ok result => exact next result
  | error same => exact .error same

theorem mapM {readChanged : Item → Except ReadError Changed}
    {readPlain : Item → Except ReadError Plain} (items : List Item)
    (each : ∀ item, Alike change (readChanged item) (readPlain item)) :
    Alike (List.map change) (items.mapM readChanged) (items.mapM readPlain) := by
  induction items with
  | nil => exact .ok []
  | cons item items induction =>
      rw [List.mapM_cons, List.mapM_cons]
      apply (each item).bind
      intro first
      apply induction.bind
      intro rest
      exact .ok (first :: rest)

end Alike

namespace Delimited

open Utf8

theorem exists_encode_of_blank {bytes : List UInt8}
    (blank : ∀ byte ∈ bytes, isBlankByte byte = true) : ∃ text, bytes = encode text := by
  have one {byte : UInt8} (isBlank : isBlankByte byte = true) :
      ∃ character : Char, character.toNat < 128 ∧ byte = asciiByte character := by
    simp only [isBlankByte, Bool.or_eq_true, beq_iff_eq] at isBlank
    obtain (((rfl | rfl) | rfl) | rfl) | rfl := isBlank
    · exact ⟨' ', by decide, rfl⟩
    · exact ⟨'\t', by decide, rfl⟩
    · exact ⟨'\n', by decide, rfl⟩
    · exact ⟨'\x0c', by decide, rfl⟩
    · exact ⟨'\r', by decide, rfl⟩
  induction bytes with
  | nil => exact ⟨[], rfl⟩
  | cons byte bytes induction =>
      rw [List.forall_mem_cons] at blank
      obtain ⟨text, rfl⟩ := induction blank.2
      obtain ⟨character, ascii, rfl⟩ := one blank.1
      exact ⟨character :: text, (encode_cons_of_ascii ascii text).symm⟩

/-- A cell is UTF-8 if it is without the blanks at its ends, because blanks are ASCII. So trimming
never hides a fault and never makes one. -/
theorem exists_encode_of_trim_bytes {cell : List UInt8} {text : List Char}
    (sound : trimBytes cell = encode text) : ∃ whole, cell = encode whole := by
  obtain ⟨front, back, split, blankFront, blankBack⟩ := exists_eq_append_drop_ends isBlankByte cell
  obtain ⟨before, rfl⟩ := exists_encode_of_blank blankFront
  obtain ⟨behind, rfl⟩ := exists_encode_of_blank blankBack
  refine ⟨before ++ (text ++ behind), ?_⟩
  rw [encode_append, encode_append, ← sound]
  exact split

theorem alike_decode_cell (record : Nat) (start : Mark) (cell : List UInt8) (field : Nat) :
    Alike trimAscii (decodeCell record start (trimBytes cell) field)
      (decodeCell record start cell field) := by
  rw [decodeCell, decodeCell]
  cases decoded : decode cell with
  | ok text =>
      rw [decode_eq_ok_iff.1 decoded, trim_bytes_encode, decode_encode]
      exact .ok text
  | error index =>
      cases decodedInside : decode (trimBytes cell) with
      | ok text =>
          obtain ⟨whole, rfl⟩ := exists_encode_of_trim_bytes (decode_eq_ok_iff.1 decodedInside)
          rw [decode_encode] at decoded
          cases decoded
      | error other => exact .error rfl

theorem alike_decode_cells (record : Nat) (start : Mark) (cells : List (List UInt8)) :
    Alike (List.map trimAscii) (decodeCells record start (cells.map trimBytes))
      (decodeCells record start cells) := by
  rw [decodeCells, decodeCells, List.zipIdx_map, List.mapM_map]
  apply Alike.mapM
  intro item
  exact alike_decode_cell record start item.1 item.2

theorem alike_read_cells (delimiter : UInt8) (record : Nat) (raw : RawRecord) :
    Alike (List.map trimmed) (readCells ⟨delimiter, true⟩ record raw)
      (readCells ⟨delimiter, false⟩ record raw) := by
  rw [readCells, readCells, if_pos rfl, if_neg Bool.false_ne_true]
  apply (alike_decode_cells record raw.start raw.cells).bind
  intro texts
  have same : (texts.map trimAscii).map (fun text => String.ofList (trim text)) =
      (texts.map String.ofList).map trimmed := by
    simp [trimmed, trim_trim_ascii, Function.comp_def]
  rw [same]
  exact .ok _

theorem alike_read_row (delimiter : UInt8) (headers : List String) (raw : RawRecord)
    (record : Nat) :
    Alike Row.trimTexts (readRow ⟨delimiter, true⟩ headers raw record)
      (readRow ⟨delimiter, false⟩ headers raw record) := by
  rw [readRow, readRow]
  apply (alike_read_cells delimiter record raw).bind
  intro cells
  rw [List.length_map]
  split
  · exact .error rfl
  · have values : (cells.map trimmed).map Value.coerce =
        (cells.map Value.coerce).map Value.trimText := by
      simp [Value.coerce_trimmed]
    have same : Row.ofList (headers.zip ((cells.map trimmed).map Value.coerce)) =
        (Row.ofList (headers.zip (cells.map Value.coerce))).trimTexts := by
      rw [Row.trim_texts_of_list, values, List.zip_map_right]
      rfl
    rw [same]
    exact .ok _

theorem alike_read_rows (delimiter : UInt8) (headers : List String) (first : Nat)
    (raws : List RawRecord) :
    Alike (List.map Row.trimTexts) (readRows ⟨delimiter, true⟩ headers first raws)
      (readRows ⟨delimiter, false⟩ headers first raws) := by
  apply Alike.mapM
  intro item
  exact alike_read_row delimiter headers item.1 item.2

theorem alike_read (delimiter : UInt8) (bytes : List UInt8) :
    Alike Dataset.trimTexts (Dataset.read ⟨delimiter, true⟩ bytes)
      (Dataset.read ⟨delimiter, false⟩ bytes) := by
  cases split : splitRecords delimiter bytes with
  | nil =>
      rw [Dataset.read, Dataset.read, split]
      exact .error rfl
  | cons header raws =>
      rw [read_eq_of_split_records ⟨delimiter, true⟩ split,
        read_eq_of_split_records ⟨delimiter, false⟩ split]
      cases readHeaders header with
      | error fault => exact .error rfl
      | ok headers =>
          apply (alike_read_rows delimiter headers 1 raws).bind
          intro rows
          exact .ok (Dataset.mk headers rows)

/-- With trimming the same dataset is read as without, with trimmed texts, and the same bytes are
refused for the same reason. -/
theorem trimming_only_trims_texts (delimiter : UInt8) (bytes : List UInt8) :
    (∀ dataset, Dataset.read ⟨delimiter, false⟩ bytes = .ok dataset →
      Dataset.read ⟨delimiter, true⟩ bytes = .ok dataset.trimTexts) ∧
    (∀ error, Dataset.read ⟨delimiter, false⟩ bytes = .error error →
      ∃ other, Dataset.read ⟨delimiter, true⟩ bytes = .error other ∧
        other.unindexed = error.unindexed) := by
  have alike := alike_read delimiter bytes
  generalize Dataset.read ⟨delimiter, true⟩ bytes = changed at alike ⊢
  generalize Dataset.read ⟨delimiter, false⟩ bytes = plain at alike ⊢
  cases alike with
  | ok dataset =>
      constructor
      · intro other same
        rw [Except.ok.inj same]
      · intro error failed
        cases failed
  | error same =>
      constructor
      · intro dataset loaded
        cases loaded
      · intro error failed
        rw [← Except.error.inj failed]
        exact ⟨_, rfl, same⟩

/-- A quoted number with blanks around it is a number either way, and a no-break space is white
space too. -/
theorem trimming_only_trims_texts_no_break_space :
    let bytes := Utf8.encode "a,b\n\" 1\t\",\u00a0x y \n".toList
    let kept : Dataset := ⟨["a", "b"], [.ofList [("a", .coerce "1"), ("b", .string "\u00a0x y ")]]⟩
    let trimmed : Dataset := ⟨["a", "b"], [.ofList [("a", .coerce "1"), ("b", .string "x y")]]⟩
    Dataset.read ⟨44, false⟩ bytes = .ok kept ∧ Dataset.read ⟨44, true⟩ bytes = .ok trimmed := by
  intro bytes kept trimmed
  have loaded : Dataset.read ⟨44, false⟩ bytes = .ok kept := eq_ok_of_toOption (by decide +kernel)
  have same : kept.trimTexts = trimmed := by decide +kernel
  have read := (trimming_only_trims_texts 44 bytes).1 kept loaded
  rw [same] at read
  exact ⟨loaded, read⟩

end Delimited

end TableQuery
