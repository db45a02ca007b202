import TableQuery.Proofs.Delimited.Extension

/-!
The line that is reported for a record with too many cells. It is the line on which the record
before it ended, the last byte of its line break included. Behind that byte there may be the line
feed of a two-byte line break and empty lines, and each line feed among these is missing in the
report. So the line is the one of the first byte of the record exactly where no line feed lies
between.
-/

namespace TableQuery.Delimited

def lineAt (bytes : List UInt8) (offset : Nat) : Nat := (bytes.take offset).count lineFeed + 1

def markAt (bytes : List UInt8) (offset : Nat) : Mark := ⟨offset, lineAt bytes offset⟩

/-- Where a record stands: how many bytes there are up to the end of the record before it, and how
many before its own first byte. -/
structure Place where
  after : Nat
  first : Nat
  deriving DecidableEq, Repr

def Place.gap (place : Place) (bytes : List UInt8) : List UInt8 :=
  (bytes.take place.first).drop place.after

/-- The place behind the next byte, if this byte ends no record. As long as no record has begun, the
record may begin with it. -/
def Place.passing (place : Place) (phase : Phase) (offset : Nat) : Place :=
  if phase.isStart then ⟨place.after, offset⟩ else place

def placesFrom (delimiter : UInt8) (phase : Phase) (place : Place) (offset : Nat) :
    List UInt8 → List Place
  | [] => if phase.isStart then [] else [place]
  | byte :: rest =>
      match phase.react delimiter byte with
      | (next, .endRecord) =>
          place.passing phase offset ::
            placesFrom delimiter next ⟨offset + 1, offset + 1⟩ (offset + 1) rest
      | (next, _) => placesFrom delimiter next (place.passing phase offset) (offset + 1) rest

/-- The places of all records. A byte order mark belongs to no record. -/
def recordPlaces (delimiter : UInt8) (bytes : List UInt8) : List Place :=
  if byteOrderMark.isPrefixOf bytes then
    placesFrom delimiter .recordStart ⟨0, 0⟩ byteOrderMark.length (bytes.drop byteOrderMark.length)
  else placesFrom delimiter .recordStart ⟨0, 0⟩ 0 bytes

section Steps

variable {delimiter byte : UInt8} {phase next : Phase}

theorem places_from_end_record (ended : phase.react delimiter byte = (next, .endRecord))
    (place : Place) (offset : Nat) (rest : List UInt8) :
    placesFrom delimiter phase place offset (byte :: rest) =
      place.passing phase offset ::
        placesFrom delimiter next ⟨offset + 1, offset + 1⟩ (offset + 1) rest := by
  rw [placesFrom, ended]

theorem places_from_passing {action : Action}
    (reacted : phase.react delimiter byte = (next, action))
    (goesOn : action ≠ .endRecord) (place : Place) (offset : Nat) (rest : List UInt8) :
    placesFrom delimiter phase place offset (byte :: rest) =
      placesFrom delimiter next (place.passing phase offset) (offset + 1) rest := by
  rw [placesFrom, reacted]
  cases action <;> first | rfl | exact absurd rfl goesOn

end Steps

section Marks

variable (front rest : List UInt8) (byte : UInt8)

theorem line_at_append : lineAt (front ++ rest) front.length = front.count lineFeed + 1 := by
  rw [lineAt, List.take_left]

theorem mark_at_past :
    (markAt (front ++ byte :: rest) front.length).past byte =
      markAt (front ++ byte :: rest) (front.length + 1) := by
  have behind : lineAt (front ++ byte :: rest) (front.length + 1) =
      (front ++ [byte]).count lineFeed + 1 := by
    have further := line_at_append (front ++ [byte]) rest
    rwa [List.length_append, List.length_singleton, List.append_assoc] at further
  rw [markAt, markAt, Mark.past, line_at_append, behind, List.count_append, List.count_singleton]
  by_cases feeds : byte = lineFeed
  · simp [feeds]
  · simp [feeds]

theorem line_at_first {bytes : List UInt8} {place : Place} (ordered : place.after ≤ place.first) :
    lineAt bytes place.first = lineAt bytes place.after + (place.gap bytes).count lineFeed := by
  have split : bytes.take place.first = bytes.take place.after ++ place.gap bytes := by
    have cut := (List.take_append_drop place.after (bytes.take place.first)).symm
    rwa [List.take_take, Nat.min_eq_left ordered] at cut
  rw [lineAt, lineAt, split, List.count_append]
  omega

end Marks

section Starts

variable {delimiter byte : UInt8} {phase next : Phase} {place : Place}
  {whole front rest : List UInt8}

theorem after_passing (place : Place) (phase : Phase) (offset : Nat) :
    (place.passing phase offset).after = place.after := by
  rw [Place.passing]
  split <;> rfl

theorem map_start_records (reader : Reader) (split : front ++ rest = whole)
    (start : reader.start = markAt whole place.after)
    (here : reader.here = markAt whole front.length) :
    (reader.records delimiter rest).map RawRecord.start =
      (placesFrom delimiter reader.phase place front.length rest).map
        fun place => markAt whole place.after := by
  induction rest generalizing reader place front with
  | nil =>
      rcases reader with ⟨phase, readerStart, here, cell, cells⟩
      cases phase <;> first | rfl | exact congrArg ([·]) start
  | cons byte rest induction =>
      have passed : front ++ [byte] ++ rest = whole := by simpa using split
      have further : reader.here.past byte = markAt whole (front ++ [byte]).length := by
        rw [here, ← split, mark_at_past, List.length_append, List.length_singleton]
      have length : (front ++ [byte]).length = front.length + 1 := List.length_append
      have kept := after_passing place reader.phase front.length
      rw [Reader.records, Reader.feed, placesFrom, ← length]
      rcases reader.phase.react delimiter byte with ⟨next, action⟩
      cases action with
      | endRecord =>
          let fresh : Place := ⟨(front ++ [byte]).length, (front ++ [byte]).length⟩
          have begins : reader.here.past byte = markAt whole fresh.after := further
          have later := induction (.startAt _ _ next) passed begins further
          simp only [List.map_cons, kept, ← start]
          exact congrArg (reader.start :: ·) later
      | _ =>
          apply induction _ passed _ further
          rw [kept]
          exact start

end Starts

section Gaps

/-- The record begins with the first byte behind the record before it that belongs to no line break.
This byte is where a reader of the file would look for the record. -/
structure Opens (bytes : List UInt8) (place : Place) : Prop where
  ordered : place.after ≤ place.first
  skipped : ∀ byte ∈ place.gap bytes, IsBreak byte
  begins : ∃ byte, bytes[place.first]? = some byte ∧ ¬IsBreak byte

/-- What is known of the record that is being read: before it has begun, that nothing but line
breaks has been passed. -/
structure Stands (whole : List UInt8) (phase : Phase) (place : Place) (offset : Nat) : Prop where
  blank : phase.isStart = true → place.after ≤ offset ∧
    ∀ byte ∈ Place.gap ⟨place.after, offset⟩ whole, IsBreak byte
  opened : phase.isStart = false → Opens whole place

variable {delimiter byte : UInt8} {phase next : Phase} {place : Place}
  {whole front rest : List UInt8}

theorem gap_self (offset : Nat) (bytes : List UInt8) : Place.gap ⟨offset, offset⟩ bytes = [] := by
  rw [Place.gap, List.drop_eq_nil_iff]
  exact List.length_take_le _ _

theorem stands_of_is_start (start : phase.isStart = true) (offset : Nat) :
    Stands whole phase ⟨offset, offset⟩ offset := by
  constructor
  · intro _
    rw [gap_self]
    simp
  · intro begun
    rw [start] at begun
    cases begun

theorem gap_succ {after : Nat} (ordered : after ≤ front.length)
    (split : front ++ byte :: rest = whole) :
    Place.gap ⟨after, front.length + 1⟩ whole =
      Place.gap ⟨after, front.length⟩ whole ++ [byte] := by
  have further : whole.take (front.length + 1) = front ++ [byte] := by
    rw [← split, List.take_append, List.take_of_length_le (by omega)]
    simp
  rw [Place.gap, Place.gap, further, ← split, List.take_left, List.drop_append_of_le_length ordered]

theorem opens_passing (delimiter : UInt8) (stands : Stands whole phase place front.length)
    (split : front ++ byte :: rest = whole)
    (stays : phase.isStart = true → (phase.react delimiter byte).1.isStart = false) :
    Opens whole (place.passing phase front.length) := by
  rw [Place.passing]
  split
  · rename_i start
    obtain ⟨ordered, skipped⟩ := stands.blank start
    refine ⟨ordered, skipped, byte, ?_, ?_⟩
    · rw [← split, List.getElem?_append_right (Nat.le_refl _), Nat.sub_self]
      rfl
    · intro isBreak
      have begun := stays start
      rw [react_break_of_is_start start isBreak] at begun
      cases begun
  · rename_i begun
    exact stands.opened (Bool.eq_false_iff.2 begun)

/-- The byte that ends a record does not begin it, and no other record has begun behind it. -/
theorem is_start_of_end_record (ended : phase.react delimiter byte = (next, .endRecord)) :
    phase.isStart = false ∧ next.isStart = true := by
  have reacts := reaction delimiter byte phase
  rw [ended] at reacts
  cases reacts with
  | ended ends isBreak =>
      refine ⟨?_, is_start_after_break byte⟩
      cases phase <;> first | rfl | cases ends

theorem opens_of_end_record (stands : Stands whole phase place front.length)
    (split : front ++ byte :: rest = whole)
    (ended : phase.react delimiter byte = (next, .endRecord)) :
    Opens whole (place.passing phase front.length) := by
  apply opens_passing delimiter stands split
  intro start
  rw [(is_start_of_end_record ended).1] at start
  cases start

theorem stands_passing {action : Action} (stands : Stands whole phase place front.length)
    (split : front ++ byte :: rest = whole) (reacted : phase.react delimiter byte = (next, action))
    (goesOn : action ≠ .endRecord) :
    Stands whole next (place.passing phase front.length) (front.length + 1) := by
  constructor
  · intro blank
    have reacts := reaction delimiter byte phase
    rw [reacted] at reacts
    cases reacts with
    | blank start isBreak =>
        obtain ⟨ordered, skipped⟩ := stands.blank start
        rw [after_passing, gap_succ ordered split]
        have last := List.forall_mem_singleton.2 isBreak
        exact ⟨Nat.le_succ_of_le ordered, List.forall_mem_append.2 ⟨skipped, last⟩⟩
    | ended => exact absurd rfl goesOn
    | _ => cases blank
  · intro begun
    apply opens_passing delimiter stands split
    rw [reacted]
    exact fun _ => begun

theorem opens_of_mem (stands : Stands whole phase place front.length)
    (split : front ++ rest = whole) :
    ∀ other ∈ placesFrom delimiter phase place front.length rest, Opens whole other := by
  induction rest generalizing phase place front with
  | nil =>
      rw [placesFrom]
      split
      · simp
      · rename_i begun
        exact List.forall_mem_singleton.2 (stands.opened (Bool.eq_false_iff.2 begun))
  | cons byte rest induction =>
      have passed : front ++ [byte] ++ rest = whole := by simpa using split
      have length : front.length + 1 = (front ++ [byte]).length := by simp
      cases reacted : phase.react delimiter byte with
      | mk next action =>
          by_cases ended : action = .endRecord
          · rw [ended] at reacted
            have opens := opens_of_end_record stands split reacted
            -- Behind the end of a record the invariant holds anew, as nothing has been passed yet.
            have start := (is_start_of_end_record reacted).2
            rw [places_from_end_record reacted, length]
            exact List.forall_mem_cons.2 ⟨opens, induction (stands_of_is_start start _) passed⟩
          · have goesOn := stands_passing stands split reacted ended
            rw [length] at goesOn
            rw [places_from_passing reacted ended, length]
            exact induction goesOn passed

/-- Every later record begins as it should, whatever is known of the first one. The first one is
settled apart, because a byte order mark may stand before it. -/
theorem opens_of_mem_tail (split : front ++ rest = whole) :
    ∀ other ∈ (placesFrom delimiter phase place front.length rest).tail, Opens whole other := by
  induction rest generalizing phase place front with
  | nil =>
      rw [placesFrom]
      split <;> simp
  | cons byte rest induction =>
      have passed : front ++ [byte] ++ rest = whole := by simpa using split
      have length : front.length + 1 = (front ++ [byte]).length := by simp
      cases reacted : phase.react delimiter byte with
      | mk next action =>
          by_cases ended : action = .endRecord
          · rw [ended] at reacted
            have start := (is_start_of_end_record reacted).2
            rw [places_from_end_record reacted, length]
            exact opens_of_mem (stands_of_is_start start _) passed
          · rw [places_from_passing reacted ended, length]
            exact induction passed

end Gaps

section Records

variable {delimiter : UInt8} {bytes : List UInt8}

theorem map_start_split_records (delimiter : UInt8) (bytes : List UInt8) :
    (splitRecords delimiter bytes).map RawRecord.start =
      (recordPlaces delimiter bytes).map fun place => markAt bytes place.after := by
  have origin : (⟨0, 1⟩ : Mark) = markAt bytes 0 := by simp [markAt, lineAt]
  rw [splitRecords, recordPlaces]
  split
  · rename_i marked
    obtain ⟨rest, rfl⟩ := List.isPrefixOf_iff_prefix.1 marked
    have noFeed : byteOrderMark.count lineFeed = 0 := by decide
    have here : (⟨byteOrderMark.length, 1⟩ : Mark) =
        markAt (byteOrderMark ++ rest) byteOrderMark.length := by
      rw [markAt, line_at_append, noFeed]
    rw [List.drop_left]
    exact map_start_records _ rfl origin here
  · exact map_start_records _ (List.nil_append bytes) origin origin

theorem exists_place {index : Nat} {raw : RawRecord}
    (record : (splitRecords delimiter bytes)[index]? = some raw) :
    ∃ place, (recordPlaces delimiter bytes)[index]? = some place ∧
      raw.start = markAt bytes place.after := by
  have starts := congrArg (·[index]?) (map_start_split_records delimiter bytes)
  simp only [List.getElem?_map, record] at starts
  obtain ⟨place, found, same⟩ := Option.map_eq_some_iff.1 starts.symm
  exact ⟨place, found, same.symm⟩

theorem opens_of_mem_record_places :
    ∀ place ∈ (recordPlaces delimiter bytes).tail, Opens bytes place := by
  rw [recordPlaces]
  split
  · rename_i marked
    obtain ⟨rest, rfl⟩ := List.isPrefixOf_iff_prefix.1 marked
    rw [List.drop_left]
    exact opens_of_mem_tail rfl
  · exact opens_of_mem_tail (List.nil_append bytes)

end Records

section Failures

variable {options : ReadOptions} {headers : List String} {record line expected found : Nat}
  {raw : RawRecord}

theorem exists_invalid_cell_of_decode_cells {start : Mark} {cells : List (List UInt8)}
    {error : ReadError} (failed : decodeCells record start cells = .error error) :
    ∃ cell, error = .invalidCell cell := by
  obtain ⟨⟨cell, field⟩, -, fails⟩ := exists_of_mapM_eq_error failed
  obtain ⟨index, -, same⟩ := exists_of_mapError_eq_error fails
  exact ⟨_, same.symm⟩

theorem exists_invalid_cell_of_read_headers {error : ReadError}
    (failed : readHeaders raw = .error error) : ∃ cell, error = .invalidCell cell :=
  exists_invalid_cell_of_decode_cells (eq_error_of_bind_ok failed)

theorem exists_invalid_cell_of_read_cells {error : ReadError}
    (failed : readCells options record raw = .error error) : ∃ cell, error = .invalidCell cell := by
  rw [readCells] at failed
  split at failed
  · exact exists_invalid_cell_of_decode_cells (eq_error_of_bind_ok failed)
  · exact exists_invalid_cell_of_decode_cells (eq_error_of_bind_ok failed)

theorem length_of_read_cells {cells : List String}
    (read : readCells options record raw = .ok cells) :
    cells.length = raw.cells.length := by
  rw [readCells] at read
  split at read
  · obtain ⟨texts, decoded, same⟩ := exists_of_bind_eq_ok read
    cases same
    simpa using length_of_mapM_eq_ok decoded
  · obtain ⟨texts, decoded, same⟩ := exists_of_bind_eq_ok read
    cases same
    simpa using length_of_mapM_eq_ok decoded

theorem length_of_read_headers (read : readHeaders raw = .ok headers) :
    headers.length = raw.cells.length := by
  obtain ⟨texts, decoded, same⟩ := exists_of_bind_eq_ok read
  cases same
  simpa using length_of_mapM_eq_ok decoded

theorem length_le_of_read_row {row : Row} (read : readRow options headers raw record = .ok row) :
    raw.cells.length ≤ headers.length := by
  obtain ⟨cells, found, read⟩ := exists_of_bind_eq_ok read
  rw [← length_of_read_cells found]
  split at read
  · cases read
  · rename_i short
    exact Nat.le_of_not_lt short

/-- A record with too many cells is reported with the line that it starts on. -/
theorem too_many_cells_of_read_row
    (failed : readRow options headers raw record = .error (.tooManyCells line expected found)) :
    raw.start.line = line ∧ headers.length = expected ∧ raw.cells.length = found ∧
      expected < found := by
  rw [readRow] at failed
  cases read : readCells options record raw with
  | error error =>
      obtain ⟨cell, rfl⟩ := exists_invalid_cell_of_read_cells read
      rw [read] at failed
      cases failed
  | ok cells =>
      rw [bind_eq_of_eq_ok read] at failed
      split at failed
      · rename_i long
        cases failed
        exact ⟨rfl, rfl, (length_of_read_cells read).symm, long⟩
      · cases failed

theorem exists_too_long_of_read_rows {raws : List RawRecord} {first : Nat}
    (failed : readRows options headers first raws = .error (.tooManyCells line expected found)) :
    ∃ earlier raw later, raws = earlier ++ raw :: later ∧ raw.start.line = line ∧
      headers.length = expected ∧ raw.cells.length = found ∧ expected < found ∧
      ∀ other ∈ earlier, other.cells.length ≤ expected := by
  induction raws generalizing first with
  | nil => cases failed
  | cons raw raws induction =>
      rw [read_rows_cons] at failed
      cases read : readRow options headers raw first with
      | error error =>
          rw [read] at failed
          cases failed
          obtain ⟨start, header, cells, long⟩ := too_many_cells_of_read_row read
          exact ⟨[], raw, raws, rfl, start, header, cells, long, by simp⟩
      | ok row =>
          rw [bind_eq_of_eq_ok read] at failed
          obtain ⟨earlier, other, later, split, start, header, cells, long, short⟩ :=
            induction (eq_error_of_bind_ok failed)
          refine ⟨raw :: earlier, other, later, by rw [split]; rfl, start, header, cells, long, ?_⟩
          rw [List.forall_mem_cons, ← header]
          exact ⟨length_le_of_read_row read, by rwa [header]⟩

end Failures

structure IsFirstTooLong (records : List RawRecord) (index expected found : Nat) : Prop where
  header : ∃ header, records[0]? = some header ∧ header.cells.length = expected
  record : ∃ raw, records[index]? = some raw ∧ raw.cells.length = found
  tooLong : expected < found
  earlier : ∀ raw ∈ records.take index, raw.cells.length ≤ expected

theorem exists_too_long_of_read {options : ReadOptions} {bytes : List UInt8}
    {line expected found : Nat}
    (failed : Dataset.read options bytes = .error (.tooManyCells line expected found)) :
    ∃ index raw,
      IsFirstTooLong (splitRecords options.delimiter bytes) (index + 1) expected found ∧
        (splitRecords options.delimiter bytes)[index + 1]? = some raw ∧ raw.start.line = line := by
  cases split : splitRecords options.delimiter bytes with
  | nil =>
      rw [Dataset.read, split] at failed
      cases failed
  | cons header records =>
      rw [read_eq_of_split_records options split] at failed
      cases headersRead : readHeaders header with
      | error error =>
          obtain ⟨cell, rfl⟩ := exists_invalid_cell_of_read_headers headersRead
          rw [headersRead] at failed
          cases failed
      | ok headers =>
          rw [bind_eq_of_eq_ok headersRead] at failed
          obtain ⟨earlier, raw, later, rfl, start, width, cells, long, short⟩ :=
            exists_too_long_of_read_rows (eq_error_of_bind_ok failed)
          have record : (header :: (earlier ++ raw :: later))[earlier.length + 1]? = some raw := by
            simp
          have headerWidth : header.cells.length = expected := by
            rw [← width, length_of_read_headers headersRead]
          refine ⟨earlier.length, raw, ⟨⟨header, rfl, headerWidth⟩, ⟨raw, record, cells⟩, long, ?_⟩,
            record, start⟩
          rw [List.take_succ_cons, List.take_left, List.forall_mem_cons]
          exact ⟨headerWidth.le, short⟩

/-- The line that is reported for a record with too many cells is the one on which the record before
it ended, so it is the line of the first byte exactly where no line feed lies between. -/
theorem line_of_too_many_cells {options : ReadOptions} {bytes : List UInt8}
    {line expected found : Nat}
    (failed : Dataset.read options bytes = .error (.tooManyCells line expected found)) :
    ∃ index place,
      IsFirstTooLong (splitRecords options.delimiter bytes) index expected found ∧
        (recordPlaces options.delimiter bytes)[index]? = some place ∧ Opens bytes place ∧
        line = lineAt bytes place.after ∧
        (line = lineAt bytes place.first ↔ lineFeed ∉ place.gap bytes) := by
  obtain ⟨index, raw, isFirst, record, start⟩ := exists_too_long_of_read failed
  obtain ⟨place, found, starts⟩ := exists_place record
  have later : place ∈ (recordPlaces options.delimiter bytes).tail := by
    apply List.mem_of_getElem? (i := index)
    rw [List.getElem?_tail]
    exact found
  have opens := opens_of_mem_record_places place later
  have reported : line = lineAt bytes place.after := by
    rw [← start, starts]
    rfl
  refine ⟨index + 1, place, isFirst, found, opens, reported, ?_⟩
  rw [reported, line_at_first opens.ordered, ← List.count_eq_zero]
  omega

/-- Quoted line feeds in earlier cells are counted, so behind a line break of one byte the line is
right. -/
theorem line_of_too_many_cells_quoted_feed :
    let bytes := Utf8.encode "a\n\"x\ny\"\n2,3".toList
    Dataset.read ⟨44, false⟩ bytes = .error (.tooManyCells 4 1 2) ∧
      ∃ (index : Nat) (place : Place), (recordPlaces 44 bytes)[index]? = some place ∧
        4 = lineAt bytes place.first := by
  intro bytes
  have failed : Dataset.read ⟨44, false⟩ bytes = .error (.tooManyCells 4 1 2) :=
    eq_error_of_fault? (by decide +kernel)
  have noFeeds : ∀ place ∈ recordPlaces 44 bytes, lineFeed ∉ place.gap bytes := by decide +kernel
  obtain ⟨index, place, -, found, -, -, right⟩ := line_of_too_many_cells failed
  exact ⟨failed, index, place, found, right.2 (noFeeds place (List.mem_of_getElem? found))⟩

/-- Behind a line break of two bytes the line feed is not counted yet when the next record is
opened, so the record is reported one line too early. -/
theorem line_of_too_many_cells_pending_feed :
    let bytes := Utf8.encode "a\r\n1,2".toList
    Dataset.read ⟨44, false⟩ bytes = .error (.tooManyCells 1 1 2) ∧
      (recordPlaces 44 bytes)[1]? = some ⟨2, 3⟩ ∧ lineAt bytes 3 = 2 := by
  refine ⟨eq_error_of_fault? ?_, ?_, ?_⟩ <;> decide +kernel

end TableQuery.Delimited
