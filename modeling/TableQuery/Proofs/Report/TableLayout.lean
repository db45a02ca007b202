import Mathlib.Algebra.Ring.Nat
import Mathlib.Data.List.Forall2
import TableQuery.Report.Table

/-!
How a table looks. Every line is cut at the same places, which the widths of the columns determine,
and a column is as wide as its widest text. So no text is longer than the room for it, and in each
column one text fills it.
-/

namespace TableQuery.Table

def cellText (row : Row) (header : String) : List Char := (row.get header).text.toList

def columnTexts (rows : List Row) (header : String) : List (List Char) :=
  header.toList :: rows.map fun row => cellText row header

def columnWidth (rows : List Row) (header : String) : Nat := (column rows header).width

structure IsWidthOf (width : Nat) (texts : List (List Char)) : Prop where
  fits : ∀ text ∈ texts, text.length ≤ width
  tight : ∃ text ∈ texts, text.length = width

theorem is_width_of_column_width (rows : List Row) (header : String) :
    IsWidthOf (columnWidth rows header) (columnTexts rows header) := by
  have lengths : (columnTexts rows header).map List.length =
      header.toList.length :: rows.map fun row => (cellText row header).length := by
    rw [columnTexts, List.map_cons, List.map_map]
    rfl
  have widest : ((columnTexts rows header).map List.length).max? =
      some (columnWidth rows header) := by
    rw [lengths, List.max?_cons']
    rfl
  obtain ⟨member, bound⟩ := List.max?_eq_some_iff.1 widest
  constructor
  · intro text textMember
    exact bound _ (List.mem_map_of_mem textMember)
  · exact List.mem_map.1 member

section Line

variable (front : List (List Char)) (block : List Char) (back : List (List Char))

theorem line_cons : line (block :: back) = block ++ back.flatMap ('|' :: ·) := by
  induction back generalizing block with
  | nil => rw [line, List.intercalate_singleton, List.flatMap_nil, List.append_nil]
  | cons next rest induction =>
      have split : line (block :: next :: rest) = block ++ ['|'] ++ line (next :: rest) :=
        List.intercalate_cons_cons
      rw [split, induction, List.flatMap_cons, List.append_assoc]
      rfl

theorem line_append_cons :
    line (front ++ block :: back) =
      front.flatMap (· ++ ['|']) ++ (block ++ back.flatMap ('|' :: ·)) := by
  induction front with
  | nil => exact line_cons block back
  | cons first front induction =>
      have split : line (first :: (front ++ block :: back)) =
          first ++ ['|'] ++ line (front ++ block :: back) := by
        cases front <;> exact List.intercalate_cons_cons
      rw [List.cons_append, split, induction, List.flatMap_cons]
      simp only [List.append_assoc]

end Line

/-- The number of characters in front of a column, where each column takes the width of its text, a
space on either side and a bar. -/
def columnStart (width : String → Nat) (headers : List String) (place : Nat) : Nat :=
  ((headers.take place).map fun header => width header + 3).sum

/-- A line that shows one text in each column. Where a column stands follows from the widths and the
headers alone, so it is the same in all lines. -/
structure LaidOut (width : String → Nat) (headers : List String) (shown : String → List Char)
    (whole : List Char) : Prop where
  length : whole.length = (headers.map fun header => width header + 2).sum + (headers.length - 1)
  fits : ∀ header ∈ headers, (shown header).length ≤ width header
  cell : ∀ place header, headers[place]? = some header →
    (whole.drop (columnStart width headers place)).take (width header + 2) =
      ' ' :: shown header ++ List.replicate (width header - (shown header).length) ' ' ++ [' ']
  bar : ∀ place header, headers[place]? = some header → place + 1 < headers.length →
    whole[columnStart width headers place + (width header + 2)]? = some '|'

section Layout

variable {width : String → Nat} {headers : List String} {shown : String → List Char}

theorem length_pad {size : Nat} {text : List Char} (fits : text.length ≤ size) :
    (pad size text).length = size + 2 := by
  simp only [pad, List.length_append, List.length_cons, List.length_replicate, List.length_nil]
  omega

theorem length_flatMap_pad (fits : ∀ header ∈ headers, (shown header).length ≤ width header)
    (close : List Char → List Char) (one : ∀ block, (close block).length = block.length + 1) :
    ((headers.map fun header => pad (width header) (shown header)).flatMap close).length =
      (headers.map fun header => width header + 3).sum := by
  rw [List.length_flatMap, List.map_map]
  congr 1
  apply List.map_congr_left
  intro header member
  rw [Function.comp_apply, one, length_pad (fits header member)]

theorem sum_width_add_bars :
    (headers.map fun header => width header + 3).sum =
      (headers.map fun header => width header + 2).sum + headers.length := by
  induction headers with
  | nil => rfl
  | cons header headers induction =>
      simp only [List.map_cons, List.sum_cons, List.length_cons, induction]
      omega

theorem length_line_pad (fits : ∀ header ∈ headers, (shown header).length ≤ width header) :
    (line (headers.map fun header => pad (width header) (shown header))).length =
      (headers.map fun header => width header + 2).sum + (headers.length - 1) := by
  cases headers with
  | nil => rfl
  | cons header headers =>
      obtain ⟨firstFits, restFits⟩ := List.forall_mem_cons.1 fits
      rw [List.map_cons, line_cons, List.length_append, length_pad firstFits,
        length_flatMap_pad restFits _ fun _ => List.length_cons, sum_width_add_bars]
      simp only [List.map_cons, List.sum_cons, List.length_cons]
      omega

theorem exists_line_split (fits : ∀ header ∈ headers, (shown header).length ≤ width header)
    {place : Nat} {header : String} (found : headers[place]? = some header) :
    ∃ before,
      line (headers.map fun header => pad (width header) (shown header)) =
        before ++ (pad (width header) (shown header) ++
          ((headers.drop (place + 1)).map fun header =>
            pad (width header) (shown header)).flatMap ('|' :: ·)) ∧
      before.length = columnStart width headers place := by
  obtain ⟨bound, same⟩ := List.getElem?_eq_some_iff.1 found
  have split : headers = headers.take place ++ header :: headers.drop (place + 1) := by
    rw [← same, ← List.drop_eq_getElem_cons bound, List.take_append_drop]
  have frontFits : ∀ header ∈ headers.take place, (shown header).length ≤ width header := by
    intro header member
    exact fits header (List.mem_of_mem_take member)
  refine ⟨_, ?_, length_flatMap_pad frontFits (· ++ ['|']) fun _ => List.length_append⟩
  conv_lhs => rw [split]
  rw [List.map_append, List.map_cons, line_append_cons]

theorem laid_out_line (fits : ∀ header ∈ headers, (shown header).length ≤ width header) :
    LaidOut width headers shown
      (line (headers.map fun header => pad (width header) (shown header))) where
  length := length_line_pad fits
  fits := fits
  cell := by
    intro place header found
    obtain ⟨before, split, start⟩ := exists_line_split fits found
    have size := length_pad (fits header (List.mem_of_getElem? found))
    rw [split, List.drop_left' start, List.take_left' size]
    rfl
  bar := by
    intro place header found more
    obtain ⟨before, split, start⟩ := exists_line_split fits found
    have size := length_pad (fits header (List.mem_of_getElem? found))
    rw [List.drop_eq_getElem_cons more] at split
    rw [split, ← start, ← size, List.getElem?_append_right (Nat.le_add_right _ _),
      Nat.add_sub_cancel_left, List.getElem?_append_right (Nat.le_refl _), Nat.sub_self]
    rfl

end Layout

def endLines (lines : List (List Char)) : List Char := lines.flatMap (· ++ ['\n'])

def countReport (rows : List Row) : String :=
  if rows.length = 1 then "1 row found" else toString rows.length ++ " rows found"

/-- A terminal turns green at `32` and red at `31`. The codes are spelled out here and not taken
from the renderer, so that a wrong or missing code cannot hide behind its name. -/
def countEscape : List Row → String
  | [] => "\x1b[31m"
  | _ :: _ => "\x1b[32m"

/-- A table with its header line and one line for each row. The coloured text is the plain one with
the header line in blue and the count in green or red, both switched off again by a reset. -/
structure ConsistsOf (headers : List String) (rows : List Row) (top : List Char)
    (others : List (List Char)) : Prop where
  header : LaidOut (columnWidth rows) headers String.toList top
  body : List.Forall₂ (fun row line => LaidOut (columnWidth rows) headers (cellText row) line)
    rows others
  plain : (render false headers rows).toList =
    endLines (top :: others ++ [' ' :: (countReport rows).toList])
  coloured : (render true headers rows).toList =
    endLines (("\x1b[34m".toList ++ top ++ "\x1b[0m".toList) :: others ++
      [' ' :: (countEscape rows ++ countReport rows ++ "\x1b[0m").toList])

theorem toList_count_report (rows : List Row) :
    (countReport rows).toList = countText rows.length := by
  unfold countReport countText
  split
  · rfl
  · rw [String.toList_append]
    congr 1
    exact String.toList_ofList

def countLine (coloured : Bool) (rows : List Row) : String :=
  if coloured then countEscape rows ++ countReport rows ++ "\x1b[0m" else countReport rows

theorem toList_count_line (coloured : Bool) (rows : List Row) :
    (countLine coloured rows).toList =
      paint coloured (if rows.isEmpty then .red else .green) (countText rows.length) := by
  cases coloured with
  | false => exact toList_count_report rows
  | true =>
      have escape : (countEscape rows).toList =
          (if rows.isEmpty then Colour.red else Colour.green).code := by
        cases rows with
        | nil => rfl
        | cons =>
            change "\x1b[32m".toList = Colour.green.code
            rfl
      rw [← toList_count_report, paint, if_pos rfl, ← escape, countLine, if_pos rfl,
        String.toList_append, String.toList_append]
      rfl

theorem header_line_eq (headers : List String) (rows : List Row) :
    headerLine (headers.map (column rows)) =
      line (headers.map fun header => pad (columnWidth rows header) header.toList) := by
  rw [headerLine, List.map_map]
  rfl

theorem row_line_column (headers : List String) (rows : List Row) (row : Row) :
    rowLine (headers.map (column rows)) row =
      line (headers.map fun header => pad (columnWidth rows header) (cellText row header)) := by
  rw [rowLine, List.map_map]
  rfl

theorem lines_nil (coloured : Bool) (rows : List Row) :
    lines coloured [] rows = [' ' :: (countLine coloured rows).toList] := by
  rw [lines, toList_count_line]
  rfl

theorem lines_eq {headers : List String} (nonempty : headers ≠ []) (coloured : Bool)
    (rows : List Row) :
    lines coloured headers rows =
      paint coloured .blue (headerLine (headers.map (column rows))) ::
        rows.map (rowLine (headers.map (column rows))) ++
        [' ' :: (countLine coloured rows).toList] := by
  have notEmpty : ¬headers.isEmpty = true := by rwa [List.isEmpty_iff]
  rw [lines, if_neg notEmpty, toList_count_line]

theorem consists_of {headers : List String} (nonempty : headers ≠ []) (rows : List Row) :
    ConsistsOf headers rows (headerLine (headers.map (column rows)))
      (rows.map (rowLine (headers.map (column rows)))) where
  header := by
    rw [header_line_eq]
    apply laid_out_line
    intro header _
    exact (is_width_of_column_width rows header).fits _ List.mem_cons_self
  body := by
    rw [List.forall₂_map_right_iff, List.forall₂_same]
    intro row member
    rw [row_line_column]
    apply laid_out_line
    intro header _
    exact (is_width_of_column_width rows header).fits _
      (List.mem_cons_of_mem _ (List.mem_map_of_mem member))
  plain := by
    rw [render, lines_eq nonempty, String.toList_ofList]
    rfl
  coloured := by
    rw [render, lines_eq nonempty, String.toList_ofList]
    rfl

/-- A table is its header line, a line for each row and the count, all columns standing at the same
places in every line and being as wide as their widest text. Colour is put around the header line
and the count. Without headers there is only the count. -/
theorem render_layout (headers : List String) (rows : List Row) :
    (∀ header, IsWidthOf (columnWidth rows header) (columnTexts rows header)) ∧
    (headers ≠ [] → ∃ top others, ConsistsOf headers rows top others) ∧
    (render false [] rows).toList = endLines [' ' :: (countReport rows).toList] ∧
    (render true [] rows).toList =
      endLines [' ' :: (countEscape rows ++ countReport rows ++ "\x1b[0m").toList] := by
  refine ⟨is_width_of_column_width rows, ?_, ?_, ?_⟩
  · intro nonempty
    exact ⟨_, _, consists_of nonempty rows⟩
  · rw [render, String.toList_ofList, lines_nil]
    rfl
  · rw [render, String.toList_ofList, lines_nil]
    rfl

/-- The header that stands twice has one width, a row without it shows the widest text. A table
without rows has a red count. -/
theorem render_layout_repeated_header :
    let rows := [Row.ofList [("é", .string "日|本")], Row.ofList [("n", .string "")]]
    let body := "\n 日|本       | undefined | 日|本       \n undefined |           | undefined \n "
    (["é", "n", "é"] ≠ [] ∧ (∃ top others, ConsistsOf ["é", "n", "é"] rows top others) ∧
      render false ["é", "n", "é"] rows =
        " é         | n         | é         " ++ body ++ "2 rows found\n" ∧
      render true ["é", "n", "é"] rows =
        "\x1b[34m é         | n         | é         \x1b[0m" ++ body ++
          "\x1b[32m2 rows found\x1b[0m\n") ∧
    ["n"] ≠ [] ∧ (∃ top others, ConsistsOf ["n"] [] top others) ∧
      render true ["n"] [] = "\x1b[34m n \x1b[0m\n \x1b[31m0 rows found\x1b[0m\n" := by
  intro rows body
  have three : ["é", "n", "é"] ≠ [] := List.cons_ne_nil _ _
  have one : ["n"] ≠ [] := List.cons_ne_nil _ _
  refine ⟨⟨three, (render_layout _ rows).2.1 three, ?_, ?_⟩, one, (render_layout _ []).2.1 one, ?_⟩
  · decide +kernel
  · decide +kernel
  · decide +kernel

end TableQuery.Table
