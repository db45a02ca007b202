import TableQuery.Proofs.Delimited.Records
import TableQuery.Proofs.Delimited.Written
import TableQuery.Proofs.Text.Trimming

/-!
Reading undoes writing. Whatever way a table is written, its headers and cells are read back as they
were, up to the white space that is trimmed on purpose.
-/

namespace TableQuery.Delimited

open Utf8

section Trimming

theorem dropWhile_flatMap {Item Part : Type} {parts : Item → List Part} {test : Item → Bool}
    {testPart : Part → Bool} (nonempty : ∀ item, parts item ≠ [])
    (same : ∀ item, ∀ part ∈ parts item, testPart part = test item) (items : List Item) :
    (items.flatMap parts).dropWhile testPart = (items.dropWhile test).flatMap parts := by
  induction items with
  | nil => rfl
  | cons item items induction =>
      rw [List.flatMap_cons]
      cases dropped : test item with
      | true =>
          have all : ∀ part ∈ parts item, testPart part = true := by
            intro part member
            rw [same item part member, dropped]
          rw [List.dropWhile_append_of_pos all, induction, List.dropWhile_cons_of_pos dropped]
      | false =>
          have stays : ¬test item = true := by simp [dropped]
          rw [List.dropWhile_cons_of_neg stays, List.flatMap_cons]
          cases split : parts item with
          | nil => exact absurd split (nonempty item)
          | cons part others =>
              have kept : ¬testPart part = true := by
                rw [same item part (by simp [split])]
                exact stays
              rw [List.cons_append, List.dropWhile_cons_of_neg kept]

def isAsciiBlank (character : Char) : Bool :=
  decide (character.toNat < 128) && isBlankByte (asciiByte character)

def trimAscii (text : List Char) : List Char :=
  ((text.dropWhile isAsciiBlank).reverse.dropWhile isAsciiBlank).reverse

theorem is_blank_byte_of_mem_utf8EncodeChar (character : Char) :
    ∀ byte ∈ String.utf8EncodeChar character, isBlankByte byte = isAsciiBlank character := by
  intro byte member
  by_cases ascii : character.toNat < 128
  · rw [utf8EncodeChar_of_ascii ascii, List.mem_singleton] at member
    simp [isAsciiBlank, ascii, member]
  · have high := le_toNat_of_mem_utf8EncodeChar (Nat.le_of_not_lt ascii) byte member
    have other (small : UInt8) (low : small.toNat < 128) : (byte == small) = false := by
      rw [beq_eq_false_iff_ne]
      rintro rfl
      omega
    simp [isBlankByte, other 32, other 9, other lineFeed (by decide), other 12,
      other carriageReturn (by decide), isAsciiBlank, ascii]

theorem trim_bytes_encode (text : List Char) :
    trimBytes (encode text) = encode (trimAscii text) := by
  have nonempty : ∀ character, String.utf8EncodeChar character ≠ [] := by
    intro character isNil
    rcases exists_first_byte character with ⟨byte, bytes, isCons⟩
    cases isNil.symm.trans isCons
  have nonemptyBack : ∀ character, (List.reverse ∘ String.utf8EncodeChar) character ≠ [] := by
    simp [nonempty]
  have blankBack : ∀ character, ∀ byte ∈ (List.reverse ∘ String.utf8EncodeChar) character,
      isBlankByte byte = isAsciiBlank character := by
    intro character byte member
    exact is_blank_byte_of_mem_utf8EncodeChar character byte (List.mem_reverse.1 member)
  rw [trimBytes, encode, dropWhile_flatMap nonempty is_blank_byte_of_mem_utf8EncodeChar,
    List.reverse_flatMap, dropWhile_flatMap nonemptyBack blankBack, List.reverse_flatMap]
  simp [trimAscii, encode, Function.comp_def]

theorem is_whitespace_of_is_ascii_blank {character : Char} (blank : isAsciiBlank character = true) :
    isWhitespace character = true := by
  have all : ∀ codePoint < 128, isBlankByte (UInt8.ofNat codePoint) = true →
      inAscendingRanges codePoint whitespaceRanges = true := by decide
  rw [isAsciiBlank, Bool.and_eq_true, decide_eq_true_iff] at blank
  exact all character.toNat blank.1 blank.2

/-- Taking off the ASCII part of the white space first makes no difference. So it does not matter
that the bytes are trimmed before they are decoded, and the text again after it. -/
theorem trim_trim_ascii (text : List Char) : trim (trimAscii text) = trim text := by
  obtain ⟨front, back, split, blankFront, blankBack⟩ := exists_eq_append_drop_ends isAsciiBlank text
  have surrounded := trim_surrounded
    (fun _ member => is_whitespace_of_is_ascii_blank (blankFront _ member))
    (fun _ member => is_whitespace_of_is_ascii_blank (blankBack _ member)) (trimAscii text)
  rw [trimAscii, ← split] at surrounded
  exact surrounded.symm

end Trimming

section Decoding

variable {raw : RawRecord} {contents : List String}

theorem decode_cells_encode (record : Nat) (start : Mark) (texts : List (List Char)) :
    decodeCells record start (texts.map encode) = .ok texts := by
  rw [decodeCells]
  apply mapM_zipIdx_eq_ok
  rw [List.forall₂_map_left_iff, List.forall₂_same]
  intro text _ field
  rw [decodeCell, decode_encode]
  rfl

theorem read_headers_eq_ok (cells : raw.cells = contents.map fun content => encode content.toList) :
    readHeaders raw = .ok (contents.map trimmed) := by
  have asTexts : raw.cells = (contents.map String.toList).map encode := by
    rw [cells, List.map_map]
    rfl
  rw [readHeaders, asTexts, bind_eq_of_eq_ok (decode_cells_encode ..), List.map_map]
  rfl

def optionallyTrimmed (options : ReadOptions) (cell : String) : String :=
  if options.trim then trimmed cell else cell

theorem read_cells_eq_ok (options : ReadOptions)
    (cells : raw.cells = contents.map fun content => encode content.toList) (record : Nat) :
    readCells options record raw = .ok (contents.map (optionallyTrimmed options)) := by
  unfold optionallyTrimmed
  by_cases trimming : options.trim = true
  · have asTexts : raw.cells.map trimBytes =
        (contents.map fun content => trimAscii content.toList).map encode := by
      rw [cells, List.map_map, List.map_map]
      apply List.map_congr_left
      intro content _
      exact trim_bytes_encode content.toList
    have same : (contents.map fun content => trimAscii content.toList).map
        (fun cell => String.ofList (trim cell)) = contents.map trimmed := by
      rw [List.map_map]
      apply List.map_congr_left
      intro content _
      exact congrArg String.ofList (trim_trim_ascii content.toList)
    simp only [if_pos trimming]
    rw [readCells, if_pos trimming, asTexts, bind_eq_of_eq_ok (decode_cells_encode ..), same]
    rfl
  · have asTexts : raw.cells = (contents.map String.toList).map encode := by
      rw [cells, List.map_map]
      rfl
    have same : (contents.map String.toList).map String.ofList = contents.map fun cell => cell := by
      simp
    simp only [if_neg trimming]
    rw [readCells, if_neg trimming, asTexts, bind_eq_of_eq_ok (decode_cells_encode ..), same]
    rfl

theorem read_row_eq_ok (options : ReadOptions)
    (cells : raw.cells = contents.map fun content => encode content.toList)
    {headers : List String} (fits : contents.length ≤ headers.length) (record : Nat) :
    readRow options headers raw record =
      .ok (rowOf headers (contents.map (optionallyTrimmed options))) := by
  have notLonger : ¬headers.length < (contents.map (optionallyTrimmed options)).length := by
    rw [List.length_map]
    omega
  rw [readRow, bind_eq_of_eq_ok (read_cells_eq_ok options cells record), if_neg notLonger]
  rfl

theorem forall₂_read_row (options : ReadOptions) {headers : List String}
    {contentLists : List (List String)} {records : List RawRecord}
    (cells : records.map RawRecord.cells =
      contentLists.map fun contents => contents.map fun content => encode content.toList)
    (fits : ∀ contents ∈ contentLists, contents.length ≤ headers.length) :
    List.Forall₂ (fun raw row => ∀ record, readRow options headers raw record = .ok row) records
      (contentLists.map fun contents =>
        rowOf headers (contents.map (optionallyTrimmed options))) := by
  induction contentLists generalizing records with
  | nil =>
      rw [List.map_eq_nil_iff.1 cells]
      exact .nil
  | cons contents contentLists induction =>
      cases records with
      | nil => cases cells
      | cons raw records =>
          rw [List.map_cons, List.map_cons, List.cons.injEq] at cells
          rw [List.forall_mem_cons] at fits
          exact .cons (read_row_eq_ok options cells.1 fits.1) (induction cells.2 fits.2)

end Decoding

section Marking

/-- Only a text that begins with the character U+FEFF has the byte order mark in front. -/
theorem head?_of_byte_order_mark {text : List Char}
    (marked : byteOrderMark.isPrefixOf (encode text) = true) : text.head? = some '\uFEFF' := by
  have mark : byteOrderMark = String.utf8EncodeChar '\uFEFF' := rfl
  rcases List.isPrefixOf_iff_prefix.1 marked with ⟨suffix, split⟩
  rw [mark] at split
  cases text with
  | nil => cases split
  | cons first rest =>
      have readFirst := decode_first_encode first (encode rest)
      have readMark := decode_first_encode '\uFEFF' suffix
      have same : String.utf8EncodeChar '\uFEFF' ++ suffix =
          String.utf8EncodeChar first ++ encode rest := split.trans List.flatMap_cons
      rw [same, readFirst] at readMark
      cases readMark
      rfl

/-- A byte order mark in front makes no difference to the cells. -/
theorem map_cells_split_records (delimiter : UInt8) (marked : Bool) {text : List Char}
    (unmarked : marked = false → text.head? ≠ some '\uFEFF') :
    (splitRecords delimiter ((if marked then byteOrderMark else []) ++ encode text)).map
        RawRecord.cells =
      cellsFrom delimiter .recordStart [] [] (encode text) := by
  cases marked with
  | true =>
      have starts : byteOrderMark.isPrefixOf (byteOrderMark ++ encode text) = true :=
        List.isPrefixOf_iff_prefix.2 (List.prefix_append ..)
      simp only [if_true, splitRecords, starts, List.drop_left]
      exact map_cells_records ..
  | false =>
      have other : ¬byteOrderMark.isPrefixOf (encode text) = true :=
        mt head?_of_byte_order_mark (unmarked rfl)
      simp only [Bool.false_eq_true, if_false, List.nil_append, splitRecords, if_neg other]
      exact map_cells_records ..

end Marking

theorem ascii_of_delimiter_byte {delimiter : Char} {byte : UInt8}
    (encoded : delimiterByte? delimiter = some byte) :
    delimiter.toNat < 128 ∧ byte = asciiByte delimiter := by
  rw [delimiterByte?, Option.ite_none_right_eq_some] at encoded
  exact ⟨encoded.1, (Option.some.inj encoded.2).symm⟩

theorem is_plain_delimiter_ascii_byte {delimiter : Char} (ascii : delimiter.toNat < 128)
    (plain : delimiter ≠ '"' ∧ delimiter ≠ '\r' ∧ delimiter ≠ '\n') :
    IsPlainDelimiter (asciiByte delimiter) := by
  have other {sign : Char} (isAscii : sign.toNat < 128) (apart : delimiter ≠ sign) :
      asciiByte delimiter ≠ asciiByte sign := fun same => apart (ascii_byte_inj ascii isAscii same)
  exact ⟨other (by decide) plain.1, other (by decide) plain.2.1, other (by decide) plain.2.2⟩

/-- A table that is written in any way is read back. The ways differ in their quotes, line breaks
and empty lines, in the mark in front and in the end of the last line. -/
theorem read_written_table {options : ReadOptions} {delimiter : Char}
    (encoded : delimiterByte? delimiter = some options.delimiter)
    (plain : delimiter ≠ '"' ∧ delimiter ≠ '\r' ∧ delimiter ≠ '\n')
    (table : WrittenTable delimiter)
    (fits : ∀ line ∈ table.lines,
      line.record.contents.length ≤ table.header.contents.length)
    (marked : Bool) (unmarked : marked = false → table.text.head? ≠ some '\uFEFF') :
    Dataset.read options ((if marked then byteOrderMark else []) ++ encode table.text) =
      .ok ⟨table.header.contents.map trimmed,
        table.lines.map fun line =>
          let cells := line.record.contents.map fun cell =>
            if options.trim then trimmed cell else cell
          .ofList ((table.header.contents.map trimmed).zip (cells.map Value.coerce))⟩ := by
  rcases ascii_of_delimiter_byte encoded with ⟨ascii, byte⟩
  have cells := map_cells_split_records options.delimiter marked unmarked
  rw [byte, cells_from_table_text ascii (is_plain_delimiter_ascii_byte ascii plain), ← byte]
    at cells
  unfold Dataset.read
  generalize splitRecords options.delimiter
    ((if marked then byteOrderMark else []) ++ encode table.text) = records at cells
  cases records with
  | nil => cases cells
  | cons header records =>
      rw [List.map_cons, List.map_cons, List.cons.injEq, List.map_map] at cells
      have headers := read_headers_eq_ok cells.1
      have lineCells : records.map RawRecord.cells =
          (table.lines.map fun line => line.record.contents).map
            fun contents => contents.map fun content => encode content.toList := by
        rw [cells.2, List.map_map]
        rfl
      have lineFits : ∀ contents ∈ table.lines.map fun line => line.record.contents,
          contents.length ≤ (table.header.contents.map trimmed).length := by
        rw [List.forall_mem_map, List.length_map]
        exact fits
      have rows := mapM_zipIdx_eq_ok (forall₂_read_row options lineCells lineFits) 1
      rw [List.map_map] at rows
      dsimp only
      rw [bind_eq_of_eq_ok headers, bind_eq_of_eq_ok rows]
      rfl

/-- A table with quotes where they are needed and where they are not, a short record, and no line
break at the end. -/
def quotedTable : WrittenTable ';' where
  emptyLines := [.lineFeed]
  header := ⟨[⟨" na\"me", true, by decide⟩, ⟨"age", false, by decide⟩], by decide, by decide⟩
  lines :=
    [⟨.both, [.lineFeed],
        ⟨[⟨"a;\nb", true, by decide⟩, ⟨" 30 ", false, by decide⟩], by decide, by decide⟩⟩,
      ⟨.carriageReturn, [], ⟨[⟨"", true, by decide⟩], by decide, by decide⟩⟩]
  ending := []

theorem read_written_table_marked :
    quotedTable.text = "\n\" na\"\"me\";age\r\n\n\"a;\nb\"; 30 \r\"\"".toList ∧
    Dataset.read ⟨59, true⟩ (byteOrderMark ++ encode quotedTable.text) =
      .ok ⟨["na\"me", "age"],
        [.ofList [("na\"me", .string "a;\nb"), ("age", .coerce "30")],
          .ofList [("na\"me", .string "")]]⟩ := by
  have encoded : delimiterByte? ';' = some (ReadOptions.mk 59 true).delimiter := rfl
  have fits : ∀ line ∈ quotedTable.lines,
      line.record.contents.length ≤ quotedTable.header.contents.length := by decide
  have read := read_written_table encoded (by decide) quotedTable fits true (by decide)
  refine ⟨rfl, read.trans ?_⟩
  apply congrArg Except.ok
  decide +kernel

end TableQuery.Delimited
