import TableQuery.Delimited.Record

/-!
The cells of the records, without the places of the records. What a reader does next depends on its
phase alone, so a stretch of bytes can be followed through the phases, whatever stands behind it.
-/

namespace TableQuery.Delimited

/-- The cells of every record that ends from here on. The bytes of the cell that has begun and the
finished cells of its record are held in reverse, as in a reader. -/
def cellsFrom (delimiter : UInt8) (phase : Phase) (cell : List UInt8)
    (cells : List (List UInt8)) : List UInt8 → List (List (List UInt8))
  | [] =>
      match phase with
      | .recordStart | .afterReturn => []
      | _ => [(cell.reverse :: cells).reverse]
  | byte :: rest =>
      match phase.react delimiter byte with
      | (next, .skip) => cellsFrom delimiter next cell cells rest
      | (next, .keep) => cellsFrom delimiter next (byte :: cell) cells rest
      | (next, .endCell) => cellsFrom delimiter next [] (cell.reverse :: cells) rest
      | (next, .endRecord) =>
          (cell.reverse :: cells).reverse :: cellsFrom delimiter next [] [] rest

theorem map_cells_records (delimiter : UInt8) (reader : Reader) (bytes : List UInt8) :
    (reader.records delimiter bytes).map RawRecord.cells =
      cellsFrom delimiter reader.phase reader.cell reader.cells bytes := by
  induction bytes generalizing reader with
  | nil =>
      rcases reader with ⟨phase, start, here, cell, cells⟩
      cases phase <;> rfl
  | cons byte rest induction =>
      rw [Reader.records, Reader.feed, cellsFrom]
      rcases reader.phase.react delimiter byte with ⟨next, action⟩
      cases action with
      | skip => exact induction _
      | keep => exact induction _
      | endCell => exact induction _
      | endRecord => exact congrArg (reader.record.cells :: ·) (induction _)

namespace Phase

def isStart : Phase → Bool
  | recordStart | afterReturn => true
  | _ => false

def opensCell : Phase → Bool
  | recordStart | afterReturn | cellStart => true
  | _ => false

def endsCell : Phase → Bool
  | cellStart | bare | afterQuote => true
  | _ => false

end Phase

abbrev IsBreak (byte : UInt8) : Prop := byte = carriageReturn ∨ byte = lineFeed

/-- A delimiter that is neither a quote nor part of a line break. With any other delimiter a table
cannot be written so that it is read back. -/
structure IsPlainDelimiter (delimiter : UInt8) : Prop where
  noQuote : delimiter ≠ quoteByte
  noReturn : delimiter ≠ carriageReturn
  noFeed : delimiter ≠ lineFeed

structure IsInner (delimiter byte : UInt8) : Prop where
  noDelimiter : byte ≠ delimiter
  noReturn : byte ≠ carriageReturn
  noFeed : byte ≠ lineFeed

section Steps

variable {delimiter byte : UInt8} {phase : Phase}

theorem react_quote (opens : phase.opensCell = true) :
    phase.react delimiter quoteByte = (.quoted, .skip) := by
  cases phase <;> first | rfl | cases opens

theorem outside_of_is_inner (inner : IsInner delimiter byte) :
    Phase.outside delimiter byte = (.bare, .keep) := by
  have noBreak : ¬IsBreak byte := not_or.2 ⟨inner.noReturn, inner.noFeed⟩
  rw [Phase.outside, if_neg inner.noDelimiter, if_neg noBreak]

theorem react_of_is_inner (opens : phase.opensCell = true) (inner : IsInner delimiter byte)
    (noQuote : byte ≠ quoteByte) : phase.react delimiter byte = (.bare, .keep) := by
  have noBreak : ¬IsBreak byte := not_or.2 ⟨inner.noReturn, inner.noFeed⟩
  have opened : Phase.openCell delimiter byte = (.bare, .keep) := by
    rw [Phase.openCell, if_neg noQuote, outside_of_is_inner inner]
  have begun : Phase.openRecord delimiter byte = (.bare, .keep) := by
    rw [Phase.openRecord, if_neg noBreak, opened]
  cases phase with
  | recordStart => exact begun
  | afterReturn => rw [Phase.react, if_neg inner.noFeed, begun]
  | cellStart => exact opened
  | _ => cases opens

theorem outside_delimiter : Phase.outside delimiter delimiter = (.cellStart, .endCell) :=
  if_pos rfl

/-- Outside quotes a delimiter ends the cell, also an empty one. -/
theorem react_delimiter (plain : IsPlainDelimiter delimiter) (outside : phase ≠ .quoted) :
    phase.react delimiter delimiter = (.cellStart, .endCell) := by
  have noBreak : ¬IsBreak delimiter := not_or.2 ⟨plain.noReturn, plain.noFeed⟩
  have opened : Phase.openCell delimiter delimiter = (.cellStart, .endCell) := by
    rw [Phase.openCell, if_neg plain.noQuote, outside_delimiter]
  have begun : Phase.openRecord delimiter delimiter = (.cellStart, .endCell) := by
    rw [Phase.openRecord, if_neg noBreak, opened]
  cases phase with
  | recordStart => exact begun
  | afterReturn => rw [Phase.react, if_neg plain.noFeed, begun]
  | cellStart => exact opened
  | bare => exact outside_delimiter
  | quoted => exact absurd rfl outside
  | afterQuote => rw [Phase.react, if_neg plain.noQuote, outside_delimiter]

theorem react_break_of_is_start (start : phase.isStart = true) (isBreak : IsBreak byte) :
    phase.react delimiter byte = (.recordStart, .skip) := by
  have skipped : Phase.openRecord delimiter byte = (.recordStart, .skip) := if_pos isBreak
  cases phase with
  | recordStart => exact skipped
  | afterReturn =>
      rw [Phase.react, skipped]
      split <;> rfl
  | _ => cases start

theorem react_break_of_ends_cell (plain : IsPlainDelimiter delimiter)
    (ends : phase.endsCell = true) (isBreak : IsBreak byte) :
    phase.react delimiter byte = (Phase.afterBreak byte, .endRecord) := by
  have noDelimiter : byte ≠ delimiter := by
    rintro rfl
    exact isBreak.elim plain.noReturn plain.noFeed
  have noQuote : byte ≠ quoteByte := by rcases isBreak with rfl | rfl <;> decide
  have ended : Phase.outside delimiter byte = (Phase.afterBreak byte, .endRecord) := by
    rw [Phase.outside, if_neg noDelimiter, if_pos isBreak]
  cases phase with
  | cellStart => rw [Phase.react, Phase.openCell, if_neg noQuote, ended]
  | bare => exact ended
  | afterQuote => rw [Phase.react, if_neg noQuote, ended]
  | _ => cases ends

theorem is_start_after_break (byte : UInt8) : (Phase.afterBreak byte).isStart = true := by
  unfold Phase.afterBreak
  split <;> rfl

end Steps

section Runs

variable {delimiter : UInt8} {phase : Phase} {cell : List UInt8} {cells : List (List UInt8)}

theorem cells_from_skip {byte : UInt8} {next : Phase}
    (reacts : phase.react delimiter byte = (next, .skip)) (rest : List UInt8) :
    cellsFrom delimiter phase cell cells (byte :: rest) =
      cellsFrom delimiter next cell cells rest := by
  rw [cellsFrom, reacts]

theorem cells_from_keep {byte : UInt8} {next : Phase}
    (reacts : phase.react delimiter byte = (next, .keep)) (rest : List UInt8) :
    cellsFrom delimiter phase cell cells (byte :: rest) =
      cellsFrom delimiter next (byte :: cell) cells rest := by
  rw [cellsFrom, reacts]

theorem cells_from_delimiter (plain : IsPlainDelimiter delimiter) (outside : phase ≠ .quoted)
    (rest : List UInt8) :
    cellsFrom delimiter phase cell cells (delimiter :: rest) =
      cellsFrom delimiter .cellStart [] (cell.reverse :: cells) rest := by
  rw [cellsFrom, react_delimiter plain outside]

theorem cells_from_nil (ends : phase.endsCell = true) :
    cellsFrom delimiter phase cell cells [] = [(cell.reverse :: cells).reverse] := by
  cases phase <;> first | rfl | cases ends

theorem cells_from_nil_of_is_start (start : phase.isStart = true) :
    cellsFrom delimiter phase cell cells [] = [] := by
  cases phase <;> first | rfl | cases start

theorem cells_from_quoted {bytes : List UInt8} (noQuote : quoteByte ∉ bytes)
    (cell rest : List UInt8) :
    cellsFrom delimiter .quoted cell cells (bytes ++ rest) =
      cellsFrom delimiter .quoted (bytes.reverse ++ cell) cells rest := by
  induction bytes generalizing cell with
  | nil => rfl
  | cons byte bytes induction =>
      rw [List.mem_cons, not_or] at noQuote
      have reacts : Phase.quoted.react delimiter byte = (.quoted, .keep) :=
        if_neg (Ne.symm noQuote.1)
      rw [List.cons_append, cells_from_keep reacts, induction noQuote.2]
      simp

theorem cells_from_doubled_quote (rest : List UInt8) :
    cellsFrom delimiter .quoted cell cells (quoteByte :: quoteByte :: rest) =
      cellsFrom delimiter .quoted (quoteByte :: cell) cells rest := by
  have closed : Phase.quoted.react delimiter quoteByte = (.afterQuote, .skip) := rfl
  have reopened : Phase.afterQuote.react delimiter quoteByte = (.quoted, .keep) := rfl
  rw [cells_from_skip closed, cells_from_keep reopened]

theorem cells_from_bare {bytes : List UInt8} (inner : ∀ byte ∈ bytes, IsInner delimiter byte)
    (cell rest : List UInt8) :
    cellsFrom delimiter .bare cell cells (bytes ++ rest) =
      cellsFrom delimiter .bare (bytes.reverse ++ cell) cells rest := by
  induction bytes generalizing cell with
  | nil => rfl
  | cons byte bytes induction =>
      rw [List.forall_mem_cons] at inner
      have reacts : Phase.bare.react delimiter byte = (.bare, .keep) := outside_of_is_inner inner.1
      rw [List.cons_append, cells_from_keep reacts, induction inner.2]
      simp

theorem exists_cells_from_blank_lines {breaks : List UInt8}
    (all : ∀ byte ∈ breaks, IsBreak byte) (start : phase.isStart = true) :
    ∃ next : Phase, next.isStart = true ∧ ∀ rest,
      cellsFrom delimiter phase [] [] (breaks ++ rest) =
        cellsFrom delimiter next [] [] rest := by
  induction breaks generalizing phase with
  | nil => exact ⟨phase, start, fun _ => rfl⟩
  | cons byte breaks induction =>
      rw [List.forall_mem_cons] at all
      have fromStart : Phase.recordStart.isStart = true := rfl
      rcases induction all.2 fromStart with ⟨next, nextStart, same⟩
      refine ⟨next, nextStart, fun rest => ?_⟩
      rw [List.cons_append, cells_from_skip (react_break_of_is_start start all.1), same]

theorem exists_cells_from_breaks (plain : IsPlainDelimiter delimiter) {breaks : List UInt8}
    (nonempty : breaks ≠ []) (all : ∀ byte ∈ breaks, IsBreak byte) (ends : phase.endsCell = true) :
    ∃ next : Phase, next.isStart = true ∧ ∀ rest,
      cellsFrom delimiter phase cell cells (breaks ++ rest) =
        (cell.reverse :: cells).reverse :: cellsFrom delimiter next [] [] rest := by
  cases breaks with
  | nil => exact absurd rfl nonempty
  | cons byte breaks =>
      rw [List.forall_mem_cons] at all
      rcases exists_cells_from_blank_lines all.2 (is_start_after_break byte) with
        ⟨next, nextStart, same⟩
      refine ⟨next, nextStart, fun rest => ?_⟩
      rw [List.cons_append, cellsFrom, react_break_of_ends_cell plain ends all.1]
      exact congrArg _ (same rest)

end Runs

end TableQuery.Delimited
