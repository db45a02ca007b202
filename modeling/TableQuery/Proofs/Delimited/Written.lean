import TableQuery.Proofs.Delimited.Cells
import TableQuery.Proofs.Text.Ascii

/-!
Delimited texts with all the freedom that their writers have: quotes around any cell, three line
breaks, empty lines, and a last line that is ended or not. The records of such a text are split into
the cells that were written.
-/

namespace TableQuery.Delimited

open Utf8

inductive LineBreak where
  | lineFeed
  | carriageReturn
  | both
  deriving DecidableEq, Repr

def LineBreak.text : LineBreak → List Char
  | lineFeed => ['\n']
  | carriageReturn => ['\r']
  | both => ['\r', '\n']

def breaksText (breaks : List LineBreak) : List Char := breaks.flatMap LineBreak.text

def doubledQuotes (text : List Char) : List Char :=
  text.flatMap fun character => if character = '"' then ['"', '"'] else [character]

structure IsBare (delimiter : Char) (text : List Char) : Prop where
  noDelimiter : delimiter ∉ text
  noReturn : '\r' ∉ text
  noFeed : '\n' ∉ text
  noQuote : text.head? ≠ some '"'

instance (delimiter : Char) (text : List Char) : Decidable (IsBare delimiter text) :=
  decidable_of_iff (delimiter ∉ text ∧ '\r' ∉ text ∧ '\n' ∉ text ∧ text.head? ≠ some '"')
    ⟨fun bare => ⟨bare.1, bare.2.1, bare.2.2.1, bare.2.2.2⟩,
      fun bare => ⟨bare.noDelimiter, bare.noReturn, bare.noFeed, bare.noQuote⟩⟩

structure WrittenCell (delimiter : Char) where
  content : String
  quoted : Bool
  bare : quoted = false → IsBare delimiter content.toList

def WrittenCell.text {delimiter : Char} (cell : WrittenCell delimiter) : List Char :=
  if cell.quoted then '"' :: (doubledQuotes cell.content.toList ++ ['"'])
  else cell.content.toList

/-- A record has a cell. A lone empty cell is written in quotes, because without them its line would
be an empty line, which stands for no record. -/
structure WrittenRecord (delimiter : Char) where
  cells : List (WrittenCell delimiter)
  nonempty : cells ≠ []
  visible : cells.map WrittenCell.content = [""] → ∀ cell ∈ cells, cell.quoted = true

namespace WrittenRecord

variable {delimiter : Char}

def text (record : WrittenRecord delimiter) : List Char :=
  [delimiter].intercalate (record.cells.map WrittenCell.text)

def contents (record : WrittenRecord delimiter) : List String :=
  record.cells.map WrittenCell.content

end WrittenRecord

/-- A record with the break that ends the line before it, and the empty lines in between. -/
structure WrittenLine (delimiter : Char) where
  lineBreak : LineBreak
  emptyLines : List LineBreak
  record : WrittenRecord delimiter

structure WrittenTable (delimiter : Char) where
  emptyLines : List LineBreak
  header : WrittenRecord delimiter
  lines : List (WrittenLine delimiter)
  ending : List LineBreak

def linesText {delimiter : Char} (ending : List LineBreak) :
    List (WrittenLine delimiter) → List Char
  | [] => breaksText ending
  | line :: lines =>
      breaksText (line.lineBreak :: line.emptyLines) ++
        (line.record.text ++ linesText ending lines)

def WrittenTable.text {delimiter : Char} (table : WrittenTable delimiter) : List Char :=
  breaksText table.emptyLines ++ (table.header.text ++ linesText table.ending table.lines)

theorem WrittenCell.text_ne_nil {delimiter : Char} {cell : WrittenCell delimiter}
    (shown : cell.content = "" → cell.quoted = true) : cell.text ≠ [] := by
  rw [text]
  cases written : cell.quoted with
  | true => simp
  | false =>
      have nonempty : cell.content ≠ "" := by
        intro empty
        cases written.symm.trans (shown empty)
      simpa using nonempty

theorem WrittenRecord.text_ne_nil {delimiter : Char} (record : WrittenRecord delimiter) :
    record.text ≠ [] := by
  rw [text]
  cases written : record.cells with
  | nil => exact absurd written record.nonempty
  | cons first others =>
      cases others with
      | nil =>
          have visible := record.visible
          rw [written] at visible
          have shown : first.content = "" → first.quoted = true := by simpa using visible
          simpa using WrittenCell.text_ne_nil shown
      | cons second others => simp

theorem is_break_of_mem_encode_breaks_text {breaks : List LineBreak} :
    ∀ byte ∈ encode (breaksText breaks), IsBreak byte := by
  intro byte member
  rw [encode, breaksText, List.flatMap_assoc] at member
  rcases List.mem_flatMap.1 member with ⟨lineBreak, -, member⟩
  have each : ∀ byte ∈ lineBreak.text.flatMap String.utf8EncodeChar, IsBreak byte := by
    cases lineBreak <;> decide +kernel
  exact each byte member

theorem encode_breaks_text_ne_nil (first : LineBreak) (breaks : List LineBreak) :
    encode (breaksText (first :: breaks)) ≠ [] := by
  have visible : encode first.text ≠ [] := by cases first <;> decide
  rw [breaksText, List.flatMap_cons, encode_append]
  exact fun empty => visible (List.append_eq_nil_iff.1 empty).1

section Splitting

variable {delimiter : Char} {phase : Phase} {cells : List (List UInt8)}

theorem is_inner_of_is_bare (ascii : delimiter.toNat < 128) {text : List Char}
    (bare : IsBare delimiter text) :
    ∀ byte ∈ encode text, IsInner (asciiByte delimiter) byte := by
  intro byte member
  have other {sign : Char} (isAscii : sign.toNat < 128) (absent : sign ∉ text) :
      byte ≠ asciiByte sign := by
    rintro rfl
    exact absent ((mem_encode_iff isAscii).1 member)
  exact ⟨other ascii bare.noDelimiter, other (by decide) bare.noReturn,
    other (by decide) bare.noFeed⟩

theorem cells_from_doubled_quotes (separator : UInt8) (text : List Char) (cell rest : List UInt8) :
    cellsFrom separator .quoted cell cells (encode (doubledQuotes text) ++ rest) =
      cellsFrom separator .quoted ((encode text).reverse ++ cell) cells rest := by
  induction text generalizing cell with
  | nil => rfl
  | cons character text induction =>
      have split : encode (character :: text) = String.utf8EncodeChar character ++ encode text :=
        List.flatMap_cons
      rw [doubledQuotes, List.flatMap_cons, ← doubledQuotes, encode_append, List.append_assoc,
        split]
      by_cases quote : character = '"'
      · subst quote
        have doubled : encode (if '"' = '"' then ['"', '"'] else ['"']) =
            [quoteByte, quoteByte] := rfl
        have single : String.utf8EncodeChar '"' = [quoteByte] := rfl
        rw [doubled, single, List.cons_append, List.singleton_append, cells_from_doubled_quote,
          induction]
        simp
      · have noQuote : quoteByte ∉ String.utf8EncodeChar character := by
          have ascii : '"'.toNat < 128 := by decide
          exact fun member => quote ((mem_utf8EncodeChar_iff ascii).1 member).symm
        have alone : encode [character] = String.utf8EncodeChar character :=
          List.flatMap_singleton ..
        rw [if_neg quote, alone, cells_from_quoted noQuote, induction]
        simp

theorem cells_from_quotes (separator : UInt8) (opens : phase.opensCell = true) (text : List Char)
    (rest : List UInt8) :
    cellsFrom separator phase [] cells (encode ('"' :: (doubledQuotes text ++ ['"'])) ++ rest) =
      cellsFrom separator .afterQuote (encode text).reverse cells rest := by
  have ascii : '"'.toNat < 128 := by decide
  have split : encode ('"' :: (doubledQuotes text ++ ['"'])) ++ rest =
      quoteByte :: (encode (doubledQuotes text) ++ quoteByte :: rest) := by
    rw [encode_cons_of_ascii ascii, encode_append, List.cons_append, List.append_assoc]
    rfl
  have closed : Phase.quoted.react separator quoteByte = (.afterQuote, .skip) := rfl
  rw [split, cells_from_skip (react_quote opens), cells_from_doubled_quotes, cells_from_skip closed,
    List.append_nil]

theorem exists_first_byte (character : Char) :
    ∃ byte bytes, String.utf8EncodeChar character = byte :: bytes := by
  have length := String.length_utf8EncodeChar character
  have positive := Char.utf8Size_pos character
  cases encoded : String.utf8EncodeChar character with
  | nil =>
      rw [encoded, List.length_nil] at length
      omega
  | cons byte bytes => exact ⟨byte, bytes, rfl⟩

theorem cells_from_bare_text (ascii : delimiter.toNat < 128) (opens : phase.opensCell = true)
    {first : Char} {text : List Char} (bare : IsBare delimiter (first :: text))
    (rest : List UInt8) :
    cellsFrom (asciiByte delimiter) phase [] cells (encode (first :: text) ++ rest) =
      cellsFrom (asciiByte delimiter) .bare (encode (first :: text)).reverse cells rest := by
  have inner := is_inner_of_is_bare ascii bare
  rcases exists_first_byte first with ⟨byte, bytes, encoded⟩
  have split : encode (first :: text) = byte :: (bytes ++ encode text) := by
    rw [encode, List.flatMap_cons, encoded]
    rfl
  have noQuote : byte ≠ quoteByte := by
    have quoteAscii : '"'.toNat < 128 := by decide
    have other : first ≠ '"' := by simpa using bare.noQuote
    rintro rfl
    have member : asciiByte '"' ∈ String.utf8EncodeChar first := by
      rw [encoded]
      exact List.mem_cons_self
    exact other ((mem_utf8EncodeChar_iff quoteAscii).1 member).symm
  rw [split, List.forall_mem_cons] at inner
  rw [split, List.cons_append, cells_from_keep (react_of_is_inner opens inner.1 noQuote),
    cells_from_bare inner.2, List.reverse_cons]

/-- A written cell is passed, and what it holds is the cell that has begun. -/
theorem exists_cells_from_cell (ascii : delimiter.toNat < 128) (cell : WrittenCell delimiter)
    (opens : phase.opensCell = true) (cells : List (List UInt8)) :
    ∃ next : Phase, (next.endsCell = true ∨ cell.text = [] ∧ next = phase) ∧ ∀ rest,
      cellsFrom (asciiByte delimiter) phase [] cells (encode cell.text ++ rest) =
        cellsFrom (asciiByte delimiter) next (encode cell.content.toList).reverse cells rest := by
  cases written : cell.quoted with
  | true =>
      have text : cell.text = '"' :: (doubledQuotes cell.content.toList ++ ['"']) := by
        rw [WrittenCell.text, if_pos written]
      rw [text]
      exact ⟨.afterQuote, .inl rfl, cells_from_quotes _ opens cell.content.toList⟩
  | false =>
      have text : cell.text = cell.content.toList := by simp [WrittenCell.text, written]
      have bare := cell.bare written
      rw [text]
      cases content : cell.content.toList with
      | nil => exact ⟨phase, .inr ⟨rfl, rfl⟩, fun _ => rfl⟩
      | cons first others =>
          rw [content] at bare
          exact ⟨.bare, .inl rfl, cells_from_bare_text ascii opens bare⟩

/-- The cells of a record are passed. Where the record opens with no cell begun, its text must show
that there is one. -/
theorem exists_cells_from_join (ascii : delimiter.toNat < 128)
    (plain : IsPlainDelimiter (asciiByte delimiter)) {written : List (WrittenCell delimiter)}
    (nonempty : written ≠ []) (opens : phase.opensCell = true)
    (visible : phase = .cellStart ∨
      [delimiter].intercalate (written.map WrittenCell.text) ≠ [])
    (cells : List (List UInt8)) :
    ∃ (next : Phase) (cell : List UInt8) (done : List (List UInt8)), next.endsCell = true ∧
      (cell.reverse :: done).reverse =
        cells.reverse ++ written.map (fun each => encode each.content.toList) ∧ ∀ rest,
      cellsFrom (asciiByte delimiter) phase [] cells
          (encode ([delimiter].intercalate (written.map WrittenCell.text)) ++ rest) =
        cellsFrom (asciiByte delimiter) next cell done rest := by
  induction written generalizing phase cells with
  | nil => exact absurd rfl nonempty
  | cons first others induction =>
      rcases exists_cells_from_cell ascii first opens cells with ⟨next, ending, passed⟩
      cases others with
      | nil =>
          have alone : [delimiter].intercalate ([first].map WrittenCell.text) = first.text := by
            simp
          have ends : next.endsCell = true := by
            rcases ending with ends | ⟨empty, same⟩
            · exact ends
            · rcases visible with started | shown
              · rw [same, started]
                rfl
              · exact absurd (alone.trans empty) shown
          rw [alone]
          exact ⟨next, _, cells, ends, by simp, passed⟩
      | cons second others =>
          have outside : next ≠ .quoted := by
            rintro rfl
            rcases ending with ends | ⟨-, rfl⟩
            · cases ends
            · cases opens
          have begun : Phase.cellStart.opensCell = true := rfl
          rcases induction (List.cons_ne_nil _ _) begun (.inl rfl)
            (encode first.content.toList :: cells) with ⟨last, cell, done, ends, same, later⟩
          refine ⟨last, cell, done, ends, ?_, ?_⟩
          · rw [same]
            simp
          · intro rest
            have single : encode [delimiter] = [asciiByte delimiter] :=
              encode_cons_of_ascii ascii []
            rw [List.map_cons, List.map_cons, List.intercalate_cons_cons, encode_append,
              encode_append, single, List.append_assoc, List.append_assoc, passed,
              List.singleton_append, cells_from_delimiter plain outside, List.reverse_reverse,
              ← List.map_cons, later]

theorem exists_cells_from_record (ascii : delimiter.toNat < 128)
    (plain : IsPlainDelimiter (asciiByte delimiter)) (record : WrittenRecord delimiter)
    (start : phase.isStart = true) :
    ∃ (next : Phase) (cell : List UInt8) (done : List (List UInt8)), next.endsCell = true ∧
      (cell.reverse :: done).reverse =
        record.contents.map (fun content => encode content.toList) ∧ ∀ rest,
      cellsFrom (asciiByte delimiter) phase [] [] (encode record.text ++ rest) =
        cellsFrom (asciiByte delimiter) next cell done rest := by
  have opens : phase.opensCell = true := by cases phase <;> first | rfl | cases start
  rcases exists_cells_from_join ascii plain record.nonempty opens (.inr record.text_ne_nil) [] with
    ⟨next, cell, done, ends, same, passed⟩
  refine ⟨next, cell, done, ends, ?_, passed⟩
  rw [same, WrittenRecord.contents, List.map_map]
  rfl

/-- After a record, the line that has begun is the next record, and each line gives one more. The
induction is on the lines; the break of a line is read together with the line after it. -/
theorem cells_from_lines_text (ascii : delimiter.toNat < 128)
    (plain : IsPlainDelimiter (asciiByte delimiter)) (ends : phase.endsCell = true)
    (cell : List UInt8) (ending : List LineBreak) (lines : List (WrittenLine delimiter)) :
    cellsFrom (asciiByte delimiter) phase cell cells (encode (linesText ending lines)) =
      (cell.reverse :: cells).reverse ::
        lines.map fun line => line.record.contents.map fun content => encode content.toList := by
  induction lines generalizing phase cell cells with
  | nil =>
      cases ending with
      | nil => exact cells_from_nil ends
      | cons first breaks =>
          rcases exists_cells_from_breaks plain (encode_breaks_text_ne_nil first breaks)
            is_break_of_mem_encode_breaks_text ends with ⟨next, start, passed⟩
          have whole := passed []
          rw [List.append_nil, cells_from_nil_of_is_start start] at whole
          exact whole
  | cons line lines induction =>
      rcases exists_cells_from_breaks plain
        (encode_breaks_text_ne_nil line.lineBreak line.emptyLines)
        is_break_of_mem_encode_breaks_text ends with ⟨next, start, passed⟩
      rcases exists_cells_from_record ascii plain line.record start with
        ⟨last, lastCell, done, lastEnds, same, read⟩
      rw [linesText, encode_append, passed, encode_append, read, induction lastEnds, same,
        List.map_cons]

theorem cells_from_table_text (ascii : delimiter.toNat < 128)
    (plain : IsPlainDelimiter (asciiByte delimiter)) (table : WrittenTable delimiter) :
    cellsFrom (asciiByte delimiter) .recordStart [] [] (encode table.text) =
      (table.header :: table.lines.map WrittenLine.record).map fun record =>
        record.contents.map fun content => encode content.toList := by
  have fromStart : Phase.recordStart.isStart = true := rfl
  rcases exists_cells_from_blank_lines is_break_of_mem_encode_breaks_text fromStart with
    ⟨next, start, skipped⟩
  rcases exists_cells_from_record ascii plain table.header start with
    ⟨last, cell, done, ends, same, read⟩
  rw [WrittenTable.text, encode_append, skipped, encode_append, read,
    cells_from_lines_text ascii plain ends, same, List.map_cons, List.map_map]
  rfl

end Splitting

end TableQuery.Delimited
