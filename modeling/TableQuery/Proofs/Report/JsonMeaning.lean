import Mathlib.Data.List.Forall2
import TableQuery.Proofs.Report.JsonText

/-!
What the JSON text of rows says: one object for each row, whose members are the fields of the row.
Both layouts say the same, and a number is read back as a double that equals the one in the row.
-/

namespace TableQuery.Json

/-- Text is kept as it is and numbers lose nothing. What has no form in JSON is null, which is an
absent value and a number that is not finite. -/
inductive Reports : Value → Tree → Prop where
  | absent : Reports .absent .null
  | nan : Reports (.number .nan) .null
  | infinite (negative : Bool) : Reports (.number (.infinite negative)) .null
  | finite {negative : Bool} {magnitude : Magnitude} {numeral : List Char}
      (spells : SpellsDouble numeral (.finite negative magnitude)) :
      Reports (.number (.finite negative magnitude)) (.number numeral)
  | string (text : String) : Reports (.string text) (.string text)

/-- The members are the fields of the row in the same order, and no name comes twice. -/
structure ReportsRow (row : Row) (pairs : List (String × Tree)) : Prop where
  fields : List.Forall₂ (fun field pair => field.1 = pair.1 ∧ Reports field.2 pair.2)
    row.fields pairs
  distinct_names : (pairs.map Prod.fst).Nodup

def ReportsTable (table : List Row) (tree : Tree) : Prop :=
  ∃ objects : List (List (String × Tree)),
    tree = .array (objects.map .object) ∧ List.Forall₂ ReportsRow table objects

def treeOf : Value → Tree
  | .number (.finite negative magnitude) => .number (number (.finite negative magnitude))
  | .string text => .string text
  | _ => .null

def members (row : Row) : List (String × Tree) :=
  row.fields.map fun field => (field.1, treeOf field.2)

theorem derives_value (value : Value) (rest : List Token) :
    Derives (.value (treeOf value)) (tokenOf value :: rest) rest := by
  cases value with
  | absent => exact .null rest
  | string text => exact .string text rest
  | number double =>
      cases double with
      | nan => exact .null rest
      | infinite negative => exact .null rest
      | finite negative magnitude => exact .number _ rest

theorem derives_members {fields : List Field} (nonempty : fields ≠ []) (rest : List Token) :
    Derives (.members (fields.map fun field => (field.1, treeOf field.2)))
      ([Token.sign .comma].intercalate (fields.map fieldTokens) ++ .sign .closeObject :: rest)
      rest := by
  induction fields with
  | nil => exact absurd rfl nonempty
  | cons field fields induction =>
      cases fields with
      | nil =>
          have value := derives_value field.2 (.sign .closeObject :: rest)
          simpa [fieldTokens] using Derives.lastMember value
      | cons next fields =>
          have later := induction (List.cons_ne_nil _ _)
          have value := derives_value field.2 (.sign .comma ::
            ([Token.sign .comma].intercalate ((next :: fields).map fieldTokens) ++
              .sign .closeObject :: rest))
          rw [intercalate_map_cons_cons, List.append_assoc]
          exact .member value later

theorem derives_row (row : Row) (rest : List Token) :
    Derives (.value (.object (members row))) (rowTokens row ++ rest) rest := by
  rw [members, rowTokens, enclosedTokens]
  cases row.fields with
  | nil => exact .emptyObject rest
  | cons field fields =>
      have derived := derives_members (List.cons_ne_nil field fields) rest
      simpa using Derives.object derived

theorem derives_items {table : List Row} (nonempty : table ≠ []) (rest : List Token) :
    Derives (.items (table.map fun row => .object (members row)))
      ([Token.sign .comma].intercalate (table.map rowTokens) ++ .sign .closeArray :: rest)
      rest := by
  induction table with
  | nil => exact absurd rfl nonempty
  | cons row table induction =>
      cases table with
      | nil =>
          have item := derives_row row (.sign .closeArray :: rest)
          simpa using Derives.lastItem item
      | cons next table =>
          have later := induction (List.cons_ne_nil _ _)
          have item := derives_row row (.sign .comma ::
            ([Token.sign .comma].intercalate ((next :: table).map rowTokens) ++
              .sign .closeArray :: rest))
          rw [intercalate_map_cons_cons, List.append_assoc]
          exact .item item later

def tableTree (table : List Row) : Tree := .array (table.map fun row => .object (members row))

theorem derives_table (table : List Row) (rest : List Token) :
    Derives (.value (tableTree table)) (tableTokens table ++ rest) rest := by
  rw [tableTree, tableTokens, enclosedTokens]
  cases table with
  | nil => exact .emptyArray rest
  | cons row table =>
      have derived := derives_items (List.cons_ne_nil row table) rest
      simpa using Derives.array derived

theorem reports_tree_of (value : Value) : Reports value (treeOf value) := by
  cases value with
  | absent => exact .absent
  | string text => exact .string text
  | number double =>
      cases double with
      | nan => exact .nan
      | infinite negative => exact .infinite negative
      | finite negative magnitude => exact .finite (spells_double_number negative magnitude)

theorem reports_row_members (row : Row) : ReportsRow row (members row) where
  fields := by
    rw [members, List.forall₂_map_right_iff, List.forall₂_same]
    intro field _
    exact ⟨rfl, reports_tree_of field.2⟩
  distinct_names := by
    have names : (members row).map Prod.fst = fieldNames row.fields := by
      rw [members, List.map_map]
      rfl
    rw [names]
    exact row.distinct_names

theorem reports_table_table_tree (table : List Row) : ReportsTable table (tableTree table) := by
  refine ⟨table.map members, ?_, ?_⟩
  · rw [tableTree, List.map_map]
    rfl
  · rw [List.forall₂_map_right_iff, List.forall₂_same]
    intro row _
    exact reports_row_members row

theorem is_text_rows (layout : Layout) (table : List Row) :
    IsText (rows layout table) (tableTree table) := by
  have atEnd : Spells [] [] := .ending (by simp)
  have written := writes_rows layout table atEnd (by simp [OpensNoNumber])
  rw [List.append_nil, List.append_nil] at written
  have derived := derives_table table []
  rw [List.append_nil] at derived
  exact ⟨tableTokens table, written, derived⟩

/-- Rows are reported faithfully: both layouts are JSON texts, they are read in one way only, and
it is the same way, which gives back every row. -/
theorem render_reports (table : List Row) :
    ∃ tree, ReportsTable table tree ∧
      ∀ layout other, IsText (render layout table).toList other ↔ other = tree := by
  refine ⟨tableTree table, reports_table_table_tree table, ?_⟩
  intro layout other
  have isText := is_text_rows layout table
  rw [render, String.toList_ofList]
  constructor
  · intro read
    exact read.unique isText
  · rintro rfl
    exact isText

end TableQuery.Json
