import Mathlib.Data.List.Infix
import TableQuery.Proofs.Delimited.Cells

/-!
Record boundaries. A line break outside quotes leaves no record unfinished: the records before it
stay as they are, whatever follows, and what follows is split as it would be behind any other
boundary, up to the places of the records.
-/

namespace TableQuery.Delimited

variable {delimiter byte : UInt8} {phase : Phase}

section Reactions

/-- All that a byte can do. A line break is passed over where no record has begun, and ends the
record where its cell may end. -/
inductive Reaction (byte : UInt8) (phase : Phase) : Phase × Action → Prop
  | blank (start : phase.isStart = true) (isBreak : IsBreak byte) :
      Reaction byte phase (.recordStart, .skip)
  | opened : Reaction byte phase (.quoted, .skip)
  | closed : Reaction byte phase (.afterQuote, .skip)
  | bare : Reaction byte phase (.bare, .keep)
  | quoted : Reaction byte phase (.quoted, .keep)
  | delimited : Reaction byte phase (.cellStart, .endCell)
  | ended (ends : phase.endsCell = true) (isBreak : IsBreak byte) :
      Reaction byte phase (.afterBreak byte, .endRecord)

theorem reaction_outside (ends : IsBreak byte → phase.endsCell = true) :
    Reaction byte phase (Phase.outside delimiter byte) := by
  rw [Phase.outside]
  split
  · exact .delimited
  · split
    · rename_i isBreak
      exact .ended (ends isBreak) isBreak
    · exact .bare

theorem reaction_open_cell (ends : IsBreak byte → phase.endsCell = true) :
    Reaction byte phase (Phase.openCell delimiter byte) := by
  rw [Phase.openCell]
  split
  · exact .opened
  · exact reaction_outside ends

theorem reaction_open_record (start : phase.isStart = true) :
    Reaction byte phase (Phase.openRecord delimiter byte) := by
  rw [Phase.openRecord]
  split
  · rename_i isBreak
    exact .blank start isBreak
  · rename_i noBreak
    exact reaction_open_cell fun isBreak => absurd isBreak noBreak

theorem reaction (delimiter byte : UInt8) (phase : Phase) :
    Reaction byte phase (phase.react delimiter byte) := by
  cases phase with
  | recordStart => exact reaction_open_record rfl
  | afterReturn =>
      rw [Phase.react]
      split
      · rename_i feeds
        exact .blank rfl (.inr feeds)
      · exact reaction_open_record rfl
  | cellStart => exact reaction_open_cell fun _ => rfl
  | bare => exact reaction_outside fun _ => rfl
  | quoted =>
      rw [Phase.react]
      split
      · exact .closed
      · exact .quoted
  | afterQuote =>
      rw [Phase.react]
      split
      · exact .quoted
      · exact reaction_outside fun _ => rfl

theorem is_start_react_break (plain : IsPlainDelimiter delimiter) (isBreak : IsBreak byte)
    (outside : phase ≠ .quoted) : (phase.react delimiter byte).1.isStart = true := by
  by_cases start : phase.isStart = true
  · rw [react_break_of_is_start start isBreak]
    rfl
  · have ends : phase.endsCell = true := by
      cases phase with
      | quoted => exact absurd rfl outside
      | recordStart | afterReturn => exact absurd rfl start
      | cellStart | bare | afterQuote => rfl
    rw [react_break_of_ends_cell plain ends isBreak]
    exact is_start_after_break byte

theorem react_of_is_start (start : phase.isStart = true) :
    phase.react delimiter byte = Phase.recordStart.react delimiter byte := by
  by_cases isBreak : IsBreak byte
  · rw [react_break_of_is_start start isBreak, react_break_of_is_start rfl isBreak]
  · have noFeed : byte ≠ lineFeed := fun feeds => isBreak (.inr feeds)
    cases phase with
    | recordStart => rfl
    | afterReturn => exact if_neg noFeed
    | _ => cases start

theorem cells_from_of_is_start (start : phase.isStart = true) (cell : List UInt8)
    (cells : List (List UInt8)) (bytes : List UInt8) :
    cellsFrom delimiter phase cell cells bytes =
      cellsFrom delimiter .recordStart cell cells bytes := by
  cases bytes with
  | nil =>
      rw [cells_from_nil_of_is_start start]
      rfl
  | cons byte rest => rw [cellsFrom, react_of_is_start start, ← cellsFrom]

end Reactions

def Phase.past (delimiter : UInt8) (phase : Phase) (bytes : List UInt8) : Phase :=
  bytes.foldl (fun phase byte => (phase.react delimiter byte).1) phase

namespace Reader

def advance (delimiter : UInt8) (reader : Reader) : List UInt8 → Reader × List RawRecord
  | [] => (reader, [])
  | byte :: rest =>
      let (next, record) := reader.feed delimiter byte
      let (last, later) := next.advance delimiter rest
      (last, record.toList ++ later)

/-- Before a record has begun, a reader holds nothing of it. This is what makes a boundary a
boundary: the records behind it do not depend on the reader that comes to it. -/
def IsClean (reader : Reader) : Prop :=
  reader.phase.isStart = true → reader.cell = [] ∧ reader.cells = []

variable (reader : Reader)

theorem records_append (bytes rest : List UInt8) :
    reader.records delimiter (bytes ++ rest) =
      (reader.advance delimiter bytes).2 ++
        (reader.advance delimiter bytes).1.records delimiter rest := by
  induction bytes generalizing reader with
  | nil => rfl
  | cons byte bytes induction =>
      rw [List.cons_append, records, advance]
      cases fed : reader.feed delimiter byte with
      | mk next record =>
          cases record with
          | none => exact induction next
          | some record => exact congrArg (record :: ·) (induction next)

theorem phase_feed (byte : UInt8) :
    (reader.feed delimiter byte).1.phase = (reader.phase.react delimiter byte).1 := by
  rw [feed]
  rcases reader.phase.react delimiter byte with ⟨next, action⟩
  cases action <;> rfl

theorem phase_advance (bytes : List UInt8) :
    (reader.advance delimiter bytes).1.phase = reader.phase.past delimiter bytes := by
  induction bytes generalizing reader with
  | nil => rfl
  | cons byte bytes induction =>
      rw [Phase.past, List.foldl_cons, ← phase_feed]
      exact induction _

variable {reader}

theorem finish_of_is_start (start : reader.phase.isStart = true) : reader.finish = [] := by
  rw [finish]
  cases phase : reader.phase with
  | recordStart | afterReturn => rfl
  | _ =>
      rw [phase] at start
      cases start

theorem is_clean_feed (clean : reader.IsClean) (byte : UInt8) :
    (reader.feed delimiter byte).1.IsClean := by
  have reacts := reaction delimiter byte reader.phase
  rw [feed]
  generalize reader.phase.react delimiter byte = reacted at reacts
  intro start
  cases reacts with
  | blank before => exact clean before
  | ended => exact ⟨rfl, rfl⟩
  | _ => cases start

theorem is_clean_advance (clean : reader.IsClean) (bytes : List UInt8) :
    (reader.advance delimiter bytes).1.IsClean := by
  induction bytes generalizing reader with
  | nil => exact clean
  | cons byte bytes induction => exact induction (is_clean_feed clean byte)

/-- Only a break outside quotes completes a record. -/
theorem is_break_of_feed {record : RawRecord}
    (completes : (reader.feed delimiter byte).2 = some record) :
    IsBreak byte ∧ reader.phase ≠ .quoted := by
  have reacts := reaction delimiter byte reader.phase
  rw [feed] at completes
  generalize reader.phase.react delimiter byte = reacted at reacts completes
  cases reacts with
  | ended ends isBreak =>
      refine ⟨isBreak, ?_⟩
      intro quoted
      rw [quoted] at ends
      cases ends
  | _ => cases completes

theorem exists_first_of_advance {bytes : List UInt8}
    (completes : (reader.advance delimiter bytes).2 ≠ []) :
    ∃ front byte back, bytes = front ++ byte :: back ∧ IsBreak byte ∧
      reader.phase.past delimiter front ≠ .quoted ∧
      (reader.advance delimiter (front ++ [byte])).2.length = 1 := by
  induction bytes generalizing reader with
  | nil => exact absurd rfl completes
  | cons byte bytes induction =>
      cases completed : (reader.feed delimiter byte).2 with
      | some record =>
          have ⟨isBreak, outside⟩ := is_break_of_feed completed
          refine ⟨[], byte, bytes, rfl, isBreak, outside, ?_⟩
          simp [advance, completed]
      | none =>
          have later : ((reader.feed delimiter byte).1.advance delimiter bytes).2 ≠ [] := by
            simpa [advance, completed] using completes
          obtain ⟨front, last, back, split, isBreak, outside, single⟩ := induction later
          refine ⟨byte :: front, last, back, ?_, isBreak, ?_, ?_⟩
          · rw [split, List.cons_append]
          · rwa [Phase.past, List.foldl_cons, ← phase_feed]
          · simpa [advance, completed] using single

end Reader

section Marks

def unmarked (bytes : List UInt8) : List UInt8 :=
  if byteOrderMark.isPrefixOf bytes then bytes.drop byteOrderMark.length else bytes

def openingReader (bytes : List UInt8) : Reader :=
  if byteOrderMark.isPrefixOf bytes then .startAt ⟨0, 1⟩ ⟨byteOrderMark.length, 1⟩ .recordStart
  else .startAt ⟨0, 1⟩ ⟨0, 1⟩ .recordStart

theorem split_records_eq (delimiter : UInt8) (bytes : List UInt8) :
    splitRecords delimiter bytes = (openingReader bytes).records delimiter (unmarked bytes) := by
  rw [splitRecords, openingReader, unmarked]
  split <;> rfl

theorem phase_opening_reader (bytes : List UInt8) : (openingReader bytes).phase = .recordStart := by
  rw [openingReader]
  split <;> rfl

theorem is_clean_opening_reader (bytes : List UInt8) : (openingReader bytes).IsClean := by
  intro _
  rw [openingReader]
  split <;> exact ⟨rfl, rfl⟩

/-- No byte of the byte order mark is a line break. So an input that is cut at a boundary has the
whole mark in front, or nothing of it. -/
theorem isPrefixOf_append_break {front : List UInt8} (isBreak : IsBreak byte) (rest : List UInt8) :
    byteOrderMark.isPrefixOf (front ++ byte :: rest) = byteOrderMark.isPrefixOf front := by
  have foreign : byte ∉ byteOrderMark := by rcases isBreak with rfl | rfl <;> decide
  rw [Bool.eq_iff_iff, List.isPrefixOf_iff_prefix, List.isPrefixOf_iff_prefix]
  constructor
  · intro marked
    have begins : front ++ [byte] <+: front ++ byte :: rest := ⟨rest, by simp⟩
    rcases List.prefix_or_prefix_of_prefix marked begins with short | long
    · rcases List.prefix_concat_iff.1 short with same | short
      · rw [same] at foreign
        simp at foreign
      · exact short
    · exact absurd (long.subset (by simp)) foreign
  · intro marked
    exact marked.trans (List.prefix_append ..)

theorem unmarked_append_break {front : List UInt8} (isBreak : IsBreak byte) (rest : List UInt8) :
    unmarked (front ++ byte :: rest) = unmarked front ++ byte :: rest := by
  rw [unmarked, unmarked, isPrefixOf_append_break isBreak]
  split
  · rename_i marked
    exact List.drop_append_of_le_length (List.isPrefixOf_iff_prefix.1 marked).length_le
  · rfl

theorem isPrefixOf_mark_append (bytes : List UInt8) :
    byteOrderMark.isPrefixOf (byteOrderMark ++ bytes) = true :=
  List.isPrefixOf_iff_prefix.2 (List.prefix_append ..)

theorem unmarked_mark_append (bytes : List UInt8) : unmarked (byteOrderMark ++ bytes) = bytes := by
  rw [unmarked, if_pos (isPrefixOf_mark_append bytes), List.drop_left]

theorem exists_marked_start {front first back : List UInt8} {last : UInt8}
    (isBreak : IsBreak byte) (split : unmarked front ++ [byte] = first ++ last :: back) :
    ∃ marked, front ++ [byte] = marked ++ last :: back ∧ unmarked marked = first ∧
      openingReader marked = openingReader front := by
  by_cases isMarked : byteOrderMark.isPrefixOf front = true
  · rcases List.isPrefixOf_iff_prefix.1 isMarked with ⟨tail, rfl⟩
    rw [unmarked_mark_append] at split
    refine ⟨byteOrderMark ++ first, ?_, unmarked_mark_append first, ?_⟩
    · rw [List.append_assoc, split, List.append_assoc]
    · rw [openingReader, openingReader, isPrefixOf_mark_append, isPrefixOf_mark_append]
  · rw [unmarked, if_neg isMarked] at split
    have notMarked : ¬byteOrderMark.isPrefixOf first = true := by
      intro marked
      have whole : byteOrderMark.isPrefixOf (front ++ [byte]) = true := by
        rw [split, List.isPrefixOf_iff_prefix]
        exact (List.isPrefixOf_iff_prefix.1 marked).trans (List.prefix_append ..)
      rw [isPrefixOf_append_break isBreak] at whole
      exact isMarked whole
    refine ⟨first, split, ?_, ?_⟩
    · rw [unmarked, if_neg notMarked]
    · rw [openingReader, openingReader, if_neg isMarked, if_neg notMarked]

theorem opening_reader_append_break {front : List UInt8} (isBreak : IsBreak byte)
    (rest : List UInt8) : openingReader (front ++ byte :: rest) = openingReader front := by
  rw [openingReader, openingReader, isPrefixOf_append_break isBreak]

end Marks

/-- The last byte is a line break outside quotes. A carriage return counts as one, although the line
feed that belongs to it may still follow. -/
def EndsRecord (delimiter : UInt8) (bytes : List UInt8) : Prop :=
  ∃ front byte, bytes = front ++ [byte] ∧ IsBreak byte ∧
    Phase.recordStart.past delimiter (unmarked front) ≠ .quoted

section Boundaries

def passBreak (delimiter : UInt8) (front : List UInt8) (byte : UInt8) : Reader × List RawRecord :=
  (openingReader front).advance delimiter (unmarked front ++ [byte])

theorem split_records_append_break (isBreak : IsBreak byte) (front rest : List UInt8) :
    splitRecords delimiter (front ++ byte :: rest) =
      (passBreak delimiter front byte).2 ++
        (passBreak delimiter front byte).1.records delimiter rest := by
  rw [split_records_eq, opening_reader_append_break isBreak, unmarked_append_break isBreak,
    List.append_cons]
  exact Reader.records_append ..

variable {front : List UInt8}

theorem is_start_pass_break (plain : IsPlainDelimiter delimiter) (isBreak : IsBreak byte)
    (outside : Phase.recordStart.past delimiter (unmarked front) ≠ .quoted) :
    (passBreak delimiter front byte).1.phase.isStart = true := by
  rw [passBreak, Reader.phase_advance, phase_opening_reader, Phase.past, List.foldl_append]
  exact is_start_react_break plain isBreak outside

theorem split_records_break (plain : IsPlainDelimiter delimiter) (isBreak : IsBreak byte)
    (outside : Phase.recordStart.past delimiter (unmarked front) ≠ .quoted) :
    splitRecords delimiter (front ++ [byte]) = (passBreak delimiter front byte).2 := by
  rw [split_records_append_break isBreak, Reader.records,
    Reader.finish_of_is_start (is_start_pass_break plain isBreak outside), List.append_nil]

/-- Behind a boundary the records go on, and their cells depend on no byte before it. Only the
places that are reported for them are counted from the start of the input. -/
theorem exists_split_records_append (plain : IsPlainDelimiter delimiter) {bytes : List UInt8}
    (ends : EndsRecord delimiter bytes) (rest : List UInt8) :
    ∃ later, splitRecords delimiter (bytes ++ rest) = splitRecords delimiter bytes ++ later ∧
      later.map RawRecord.cells = cellsFrom delimiter .recordStart [] [] rest := by
  rcases ends with ⟨front, byte, rfl, isBreak, outside⟩
  have start := is_start_pass_break plain isBreak outside
  have clean := Reader.is_clean_advance (is_clean_opening_reader front)
    (unmarked front ++ [byte]) start
  refine ⟨(passBreak delimiter front byte).1.records delimiter rest, ?_, ?_⟩
  · rw [split_records_break plain isBreak outside, List.append_assoc, List.singleton_append,
      split_records_append_break isBreak]
  · rw [map_cells_records, cells_from_of_is_start start, passBreak, clean.1, clean.2]

structure IsHeaderPart (delimiter : UInt8) (bytes header : List UInt8) : Prop where
  starts : header <+: bytes
  ends : EndsRecord delimiter header
  single : (splitRecords delimiter header).length = 1

theorem exists_header_part (plain : IsPlainDelimiter delimiter) {bytes : List UInt8}
    (ends : EndsRecord delimiter bytes) (recorded : splitRecords delimiter bytes ≠ []) :
    ∃ header, IsHeaderPart delimiter bytes header := by
  rcases ends with ⟨front, byte, rfl, isBreak, outside⟩
  rw [split_records_break plain isBreak outside, passBreak] at recorded
  rcases Reader.exists_first_of_advance recorded with
    ⟨first, last, back, split, lastBreak, lastOutside, single⟩
  rcases exists_marked_start isBreak split with ⟨marked, whole, unmarkedFirst, sameReader⟩
  rw [phase_opening_reader] at lastOutside
  have markedOutside : Phase.recordStart.past delimiter (unmarked marked) ≠ .quoted := by
    rwa [unmarkedFirst]
  refine ⟨marked ++ [last], ?_, ⟨marked, last, rfl, lastBreak, markedOutside⟩, ?_⟩
  · exact ⟨back, by rw [whole, List.append_assoc, List.singleton_append]⟩
  · rw [split_records_break plain lastBreak markedOutside, passBreak, unmarkedFirst, sameReader]
    exact single

end Boundaries

end TableQuery.Delimited
