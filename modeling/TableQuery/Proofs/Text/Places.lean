import Mathlib.Data.List.DropRight
import TableQuery.Text.Position

/-!
Places in a text can be read back. Line feeds divide a text into lines; the line and the column of a
place lead to the start of the line and to the characters that were passed in it, and so to the byte
that was located. A later byte has a later place.
-/

namespace TableQuery

@[simp] theorem byte_length_nil : byteLength [] = 0 := rfl

@[simp] theorem byte_length_append (front back : List Char) :
    byteLength (front ++ back) = byteLength front + byteLength back := by
  induction front with
  | nil => exact (Nat.zero_add _).symm
  | cons character rest induction =>
      rw [List.cons_append, byteLength, byteLength, induction, Nat.add_assoc]

theorem byte_length_pos {text : List Char} (nonempty : text ≠ []) : 0 < byteLength text := by
  cases text with
  | nil => exact absurd rfl nonempty
  | cons character rest => exact Nat.add_pos_left character.utf8Size_pos _

/-- An offset that divides no character: so many bytes are a beginning of the text. -/
def IsBoundary (text : List Char) (offset : Nat) : Prop :=
  ∃ before after, text = before ++ after ∧ byteLength before = offset

theorem is_boundary_append (before after : List Char) :
    IsBoundary (before ++ after) (byteLength before) := ⟨before, after, rfl, rfl⟩

theorem take_bytes_append (before after : List Char) :
    takeBytes (byteLength before) (before ++ after) = before := by
  induction before with
  | nil =>
      cases after with
      | nil => rfl
      | cons character rest =>
          have noRoom : ¬character.utf8Size ≤ 0 := Nat.not_le.2 character.utf8Size_pos
          rw [List.nil_append, byteLength, takeBytes, if_neg noRoom]
  | cons character rest induction =>
      rw [List.cons_append, byteLength, takeBytes, if_pos (Nat.le_add_right _ _),
        Nat.add_sub_cancel_left, induction]

theorem locate_append (before after : List Char) :
    Position.locate (before ++ after) (byteLength before) = .after before := by
  rw [Position.locate, take_bytes_append]
  rfl

def lines (text : List Char) : List (List Char) := text.splitOn '\n'

/-- The byte at which a line starts, lines being counted from zero. The lines before it stand in
front of it, each with its line feed. -/
def lineStart (text : List Char) (index : Nat) : Nat :=
  byteLength (((lines text).take index).flatMap (· ++ ['\n']))

theorem lines_cons (character : Char) (rest : List Char) :
    lines (character :: rest) =
      if character = '\n' then [] :: lines rest else (lines rest).modifyHead (character :: ·) := by
  simp only [lines, List.splitOn_cons_eq_if_modifyHead, beq_iff_eq]

theorem length_lines (text : List Char) : (lines text).length = text.count '\n' + 1 := by
  induction text with
  | nil => rfl
  | cons character rest induction =>
      rw [lines_cons]
      split
      · rename_i feed
        rw [feed, List.length_cons, induction, List.count_cons_self]
      · rename_i other
        rw [List.length_modifyHead, induction, List.count_cons_of_ne other]

theorem flatMap_lines (text : List Char) :
    (lines text).flatMap (· ++ ['\n']) = text ++ ['\n'] := by
  induction text with
  | nil => rfl
  | cons character rest induction =>
      rw [lines_cons]
      split
      · rename_i feed
        rw [feed, List.flatMap_cons, induction]
        rfl
      · cases split : lines rest with
        | nil => exact absurd split (List.splitOn_ne_nil _ _)
        | cons first others =>
            rw [split, List.flatMap_cons] at induction
            rw [List.modifyHead_cons, List.flatMap_cons, List.cons_append, List.cons_append,
              induction]
            rfl

theorem lines_cases (text : List Char) :
    ('\n' ∉ text ∧ lines text = [text]) ∨
      ∃ first rest, '\n' ∉ first ∧ text = first ++ '\n' :: rest ∧
        lines text = first :: lines rest := by
  by_cases feed : '\n' ∈ text
  · obtain ⟨first, rest, split, apart⟩ := List.eq_append_cons_of_mem feed
    refine .inr ⟨first, rest, apart, split, ?_⟩
    rw [split, lines, List.splitOn_append_cons_self_of_not_mem apart]
    rfl
  · exact .inl ⟨feed, List.splitOn_eq_singleton feed⟩

theorem bne_of_not_mem {Item : Type} [BEq Item] [LawfulBEq Item] {items : List Item} {stop : Item}
    (apart : stop ∉ items) : ∀ item ∈ items, (item != stop) = true := by
  intro item member
  rw [bne_iff_ne]
  exact fun same => apart (same ▸ member)

theorem takeWhile_append_feed {front : List Char} (apart : '\n' ∉ front) (rest : List Char) :
    (front ++ '\n' :: rest).takeWhile (· != '\n') = front := by
  have stop : ('\n' :: rest).takeWhile (· != '\n') = [] := List.takeWhile_cons_of_neg (by decide)
  rw [List.takeWhile_append_of_pos (bne_of_not_mem apart), stop, List.append_nil]

theorem getElem?_zero_lines (text : List Char) :
    (lines text)[0]? = some (text.takeWhile (· != '\n')) := by
  obtain ⟨apart, split⟩ | ⟨first, rest, apart, rfl, split⟩ := lines_cases text
  · rw [split, List.takeWhile_eq_self_iff.2 (bne_of_not_mem apart)]
    rfl
  · rw [split, takeWhile_append_feed apart]
    rfl

theorem last_line_cases (before : List Char) :
    '\n' ∉ lastLine before ∧
      (before = lastLine before ∨ ∃ earlier, before = earlier ++ '\n' :: lastLine before) := by
  by_cases feed : '\n' ∈ before
  · obtain ⟨last, earlier, split, apart⟩ := List.eq_append_cons_of_mem (List.mem_reverse.2 feed)
    have same : lastLine before = last.reverse := by
      rw [lastLine, split, takeWhile_append_feed apart]
    rw [same]
    refine ⟨fun member => apart (List.mem_reverse.1 member), .inr ⟨earlier.reverse, ?_⟩⟩
    rw [← List.reverse_reverse before, split]
    simp only [List.reverse_append, List.reverse_cons, List.append_assoc, List.singleton_append]
  · have apart : '\n' ∉ before.reverse := fun member => feed (List.mem_reverse.1 member)
    have same : lastLine before = before := by
      rw [lastLine, List.takeWhile_eq_self_iff.2 (bne_of_not_mem apart), List.reverse_reverse]
    rw [same]
    exact ⟨feed, .inl rfl⟩

/-- In front of the line that has begun there are as many lines as line feeds. -/
theorem exists_earlier_lines (before after : List Char) :
    ∃ earlier, lines (before ++ after) = earlier ++ lines (lastLine before ++ after) ∧
      earlier.length = before.count '\n' ∧
      earlier.flatMap (· ++ ['\n']) ++ lastLine before = before := by
  obtain ⟨apart, same | ⟨front, split⟩⟩ := last_line_cases before
  · refine ⟨[], ?_, ?_, same.symm⟩
    · rw [← same]
      rfl
    · rw [same, List.count_eq_zero.2 apart]
      rfl
  · refine ⟨lines front, ?_, ?_, ?_⟩
    · conv_lhs => rw [split, List.append_assoc, List.cons_append, lines,
        List.splitOn_append_cons_self]
      rfl
    · conv_rhs => rw [split, List.count_append, List.count_cons_self, List.count_eq_zero.2 apart]
      exact length_lines front
    · rw [flatMap_lines, List.append_assoc, List.singleton_append]
      exact split.symm

theorem getElem?_lines_append (before after : List Char) :
    (lines (before ++ after))[before.count '\n']? =
      some (lastLine before ++ after.takeWhile (· != '\n')) := by
  obtain ⟨earlier, split, count, -⟩ := exists_earlier_lines before after
  have apart := (last_line_cases before).1
  rw [split, ← count, List.getElem?_append_right (Nat.le_refl _), Nat.sub_self,
    getElem?_zero_lines, List.takeWhile_append_of_pos (bne_of_not_mem apart)]

theorem exists_line_start (before after : List Char) :
    ∃ earlier, before = earlier ++ lastLine before ∧
      byteLength earlier = lineStart (before ++ after) (before.count '\n') := by
  obtain ⟨earlier, split, count, whole⟩ := exists_earlier_lines before after
  refine ⟨earlier.flatMap (· ++ ['\n']), whole.symm, ?_⟩
  rw [lineStart, split, ← count, List.take_left]

namespace Position

/-- Line and column lead to a byte: the line is there, it holds as many characters as were passed,
none of which ends it, and they lie between its start and the byte. -/
structure LeadsTo (place : Position) (text : List Char) (offset : Nat) : Prop where
  line_pos : 0 < place.line
  column_pos : 0 < place.column
  passed : ∃ line, (lines text)[place.line - 1]? = some line ∧ place.column - 1 ≤ line.length ∧
    '\n' ∉ line.take (place.column - 1) ∧
    offset = lineStart text (place.line - 1) + byteLength (line.take (place.column - 1))

/-- The order of reading: line by line, and within a line from left to right. -/
def Precedes (place other : Position) : Prop :=
  place.line < other.line ∨ place.line = other.line ∧ place.column < other.column

theorem leads_to_after (before after : List Char) :
    (Position.after before).LeadsTo (before ++ after) (byteLength before) := by
  refine ⟨Nat.succ_pos _, Nat.succ_pos _, _, getElem?_lines_append before after, ?_, ?_, ?_⟩
  · rw [List.length_append]
    exact Nat.le_add_right _ _
  · rw [Position.after, Nat.add_sub_cancel, List.take_left]
    exact (last_line_cases before).1
  · obtain ⟨earlier, split, start⟩ := exists_line_start before after
    rw [Position.after, Nat.add_sub_cancel, Nat.add_sub_cancel, List.take_left, ← start,
      ← byte_length_append, ← split]

theorem last_line_append {more : List Char} (apart : '\n' ∉ more) (before : List Char) :
    lastLine (before ++ more) = lastLine before ++ more := by
  have reversed : '\n' ∉ more.reverse := fun member => apart (List.mem_reverse.1 member)
  rw [lastLine, lastLine, List.reverse_append,
    List.takeWhile_append_of_pos (bne_of_not_mem reversed), List.reverse_append,
    List.reverse_reverse]

/-- Further characters lead to a further place: a line feed among them to a further line, and
otherwise each of them to a further column. -/
theorem precedes_after_append (before : List Char) {more : List Char} (nonempty : more ≠ []) :
    (Position.after before).Precedes (.after (before ++ more)) := by
  by_cases feed : '\n' ∈ more
  · left
    have further := List.count_pos_iff.2 feed
    rw [Position.after, Position.after, List.count_append]
    exact Nat.succ_lt_succ (Nat.lt_add_of_pos_right further)
  · right
    constructor
    · rw [Position.after, Position.after, List.count_append, List.count_eq_zero.2 feed,
        Nat.add_zero]
    · rw [Position.after, Position.after, last_line_append feed, List.length_append]
      exact Nat.succ_lt_succ (Nat.lt_add_of_pos_right (List.length_pos_iff.2 nonempty))

theorem Precedes.ne {place other : Position} (precedes : place.Precedes other) :
    (place.line, place.column) ≠ (other.line, other.column) := by
  intro same
  have sameLine := congrArg Prod.fst same
  have sameColumn := congrArg Prod.snd same
  unfold Precedes at precedes
  omega

end Position

theorem exists_more_of_byte_length_le {before after other rest : List Char}
    (same : before ++ after = other ++ rest) (bound : byteLength before ≤ byteLength other) :
    ∃ more, other = before ++ more := by
  obtain ⟨more, split, -⟩ | ⟨more, split, -⟩ := List.append_eq_append_iff.1 same
  · exact ⟨more, split⟩
  · by_cases nothing : more = []
    · rw [nothing, List.append_nil] at split
      exact ⟨[], by rw [split, List.append_nil]⟩
    · have positive := byte_length_pos nothing
      rw [split, byte_length_append] at bound
      omega

theorem precedes_of_lt {text : List Char} {first second : Nat} (isFirst : IsBoundary text first)
    (isSecond : IsBoundary text second) (less : first < second) :
    (Position.locate text first).Precedes (.locate text second) := by
  obtain ⟨before, after, rfl, rfl⟩ := isFirst
  obtain ⟨other, rest, same, rfl⟩ := isSecond
  rw [locate_append, same, locate_append]
  obtain ⟨more, rfl⟩ := exists_more_of_byte_length_le same (Nat.le_of_lt less)
  have nonempty : more ≠ [] := by
    rintro rfl
    rw [List.append_nil] at less
    exact absurd less (Nat.lt_irrefl _)
  exact Position.precedes_after_append before nonempty

/-- Positions are invertible and ordered. The line and the column of a byte between two characters
lead back to this byte, a further byte has a further place, and so no two of them have the same line
and column. -/
theorem located_places_lead_back (text : List Char) :
    (∀ offset, IsBoundary text offset →
      (Position.locate text offset).offset = offset ∧
        (Position.locate text offset).LeadsTo text offset) ∧
    (∀ first second, IsBoundary text first → IsBoundary text second → first < second →
      (Position.locate text first).Precedes (.locate text second)) ∧
    ∀ first second, IsBoundary text first → IsBoundary text second → first ≠ second →
      ((Position.locate text first).line, (Position.locate text first).column) ≠
        ((Position.locate text second).line, (Position.locate text second).column) := by
  refine ⟨?_, fun _ _ => precedes_of_lt, ?_⟩
  · rintro offset ⟨before, after, rfl, rfl⟩
    refine ⟨rfl, ?_⟩
    rw [locate_append]
    exact Position.leads_to_after before after
  · intro first second isFirst isSecond distinct
    rcases Nat.lt_or_gt_of_ne distinct with less | greater
    · exact (precedes_of_lt isFirst isSecond less).ne
    · exact (precedes_of_lt isSecond isFirst greater).ne.symm

/-- A line feed that follows another one stands in an empty line. -/
theorem located_places_lead_back_empty_line :
    let text := "aé\n\nñ€".toList
    IsBoundary text 4 ∧ IsBoundary text 7 ∧ Position.locate text 4 = ⟨4, 2, 1⟩ ∧
      Position.locate text 7 = ⟨7, 3, 2⟩ ∧ (Position.locate text 7).LeadsTo text 7 ∧
      (Position.locate text 4).Precedes (.locate text 7) ∧
      ((Position.locate text 4).line, (Position.locate text 4).column) ≠
        ((Position.locate text 7).line, (Position.locate text 7).column) := by
  intro text
  have isFirst : IsBoundary text 4 := ⟨"aé\n".toList, "\nñ€".toList, rfl, by decide⟩
  have isSecond : IsBoundary text 7 := ⟨"aé\n\nñ".toList, "€".toList, rfl, by decide⟩
  have back := located_places_lead_back text
  refine ⟨isFirst, isSecond, by decide, by decide, (back.1 7 isSecond).2, ?_, ?_⟩
  · exact back.2.1 4 7 isFirst isSecond (by decide)
  · exact back.2.2 4 7 isFirst isSecond (by decide)

end TableQuery
