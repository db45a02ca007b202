import Mathlib.Data.List.TakeDrop
import TableQuery.Report.Table
import TableQuery.Proofs.FirstMention
import TableQuery.Proofs.Report.JsonMeaning
import TableQuery.Proofs.Session.Meaning

/-!
The wildcard against the list of all headers. Both keep the same rows, and a table of them looks the
same, as it finds every cell by its header. The JSON texts tell a field that is missing from one
that is absent.
-/

namespace TableQuery

open Delimited

namespace Table

variable {headers : List String} {rows : List Row} {change : Row → Row}

theorem column_map {header : String}
    (same : ∀ row ∈ rows, (change row).get header = row.get header) :
    column (rows.map change) header = column rows header := by
  have widths : ((rows.map change).map fun row => (row.get header).text.toList.length) =
      rows.map fun row => (row.get header).text.toList.length := by
    rw [List.map_map]
    apply List.map_congr_left
    intro row member
    rw [Function.comp_apply, same row member]
  rw [column, column]
  dsimp only
  rw [widths]

theorem row_line_eq {row other : Row}
    (same : ∀ header ∈ headers, other.get header = row.get header) :
    rowLine (headers.map (column rows)) other = rowLine (headers.map (column rows)) row := by
  rw [rowLine, rowLine, List.map_map, List.map_map]
  congr 1
  apply List.map_congr_left
  intro header member
  rw [Function.comp_apply, Function.comp_apply, column]
  dsimp only
  rw [same header member]

/-- A table shows of its rows no more than the values under its headers. So rows that agree there
look alike, even where one of them lacks a field that is absent in the other. -/
theorem render_map (coloured : Bool)
    (same : ∀ row ∈ rows, ∀ header ∈ headers, (change row).get header = row.get header) :
    render coloured headers (rows.map change) = render coloured headers rows := by
  have columns : headers.map (column (rows.map change)) = headers.map (column rows) := by
    apply List.map_congr_left
    intro header member
    exact column_map fun row rowMember => same row rowMember header member
  have body : (rows.map change).map (rowLine (headers.map (column rows))) =
      rows.map (rowLine (headers.map (column rows))) := by
    rw [List.map_map]
    apply List.map_congr_left
    intro row member
    exact row_line_eq (same row member)
  rw [render, render, lines, lines, columns, body, List.length_map, List.isEmpty_map]

end Table

namespace Json

theorem map_members_of_render_eq {layout : Layout} {table other : List Row}
    (same : render layout table = render layout other) :
    table.map members = other.map members := by
  have sameText : rows layout table = rows layout other := String.ofList_injective same
  have isText := is_text_rows layout table
  rw [sameText] at isText
  have trees := Tree.array.inj (isText.unique (is_text_rows layout other))
  have objects : (table.map members).map Tree.object = (other.map members).map Tree.object := by
    rw [List.map_map, List.map_map]
    exact trees
  exact List.map_injective_iff.2 (fun _ _ => Tree.object.inj) objects

theorem map_names_of_render_eq {layout : Layout} {table other : List Row}
    (same : render layout table = render layout other) :
    table.map Row.names = other.map Row.names := by
  have names : (fun row => (members row).map Prod.fst) = Row.names := by
    funext row
    rw [members, List.map_map]
    rfl
  have mapped := congrArg (List.map (List.map Prod.fst)) (map_members_of_render_eq same)
  rw [List.map_map, List.map_map] at mapped
  exact names ▸ mapped

end Json

theorem Row.project_eq_self {row : Row} {headers : List String} (names : row.names = headers) :
    row.project headers = row := by
  have distinct : headers.Nodup := names ▸ row.distinct_names
  apply eq_of_fields
  rw [fields_project, first_mentions_of_nodup distinct, ← names, ← row.fields_eq_map]

/-- What the wildcard and the list of all headers give under the same filter. -/
structure AgreesOnAllHeaders (dataset : Dataset) (filter : Option (Condition Literal))
    (whole listed : List Row) : Prop where
  rows : whole = dataset.rows.filter (Query.keeps ⟨.wildcard, filter⟩) ∧
    listed = whole.map fun row => row.project dataset.headers
  table : ∀ coloured, Table.render coloured dataset.headers listed =
    Table.render coloured dataset.headers whole
  json : ∀ layout, Json.render layout listed = Json.render layout whole ↔
    ∀ row ∈ whole, row.names = dataset.headers
  /-- In loaded rows only the end of a record can be missing. -/
  loaded : ∀ options bytes, Dataset.read options bytes = .ok dataset →
    ∃ records, readRecords options bytes = .ok (dataset.headers, records) ∧
      ∀ layout, Json.render layout listed ≠ Json.render layout whole ↔
        ∃ record ∈ records, Query.Wants ⟨.wildcard, filter⟩ (cellValue dataset.headers record) ∧
          record.length < dataset.headers.length

section Agreement

variable {dataset : Dataset} (filter : Option (Condition Literal))

theorem map_names_map_project (distinct : dataset.headers.Nodup) (rows : List Row) :
    (rows.map fun row => row.project dataset.headers).map Row.names = rows.map Row.names ↔
      ∀ row ∈ rows, row.names = dataset.headers := by
  have names : Row.names ∘ (fun row : Row => row.project dataset.headers) =
      fun _ => dataset.headers := by
    funext row
    rw [Function.comp_apply, Row.names_project, first_mentions_of_nodup distinct]
  rw [List.map_map, names, List.map_inj_left]
  simp only [eq_comm]

theorem render_map_project_iff (distinct : dataset.headers.Nodup) (layout : Json.Layout)
    (rows : List Row) :
    Json.render layout (rows.map fun row => row.project dataset.headers) =
        Json.render layout rows ↔ ∀ row ∈ rows, row.names = dataset.headers := by
  constructor
  · intro same
    exact (map_names_map_project distinct rows).1 (Json.map_names_of_render_eq same)
  · intro names
    congr 1
    rw [List.map_congr_left fun row member => Row.project_eq_self (names row member), List.map_id']

theorem names_row_of_ne_iff (distinct : dataset.headers.Nodup) (record : List String) :
    (rowOf dataset.headers record).names ≠ dataset.headers ↔
      record.length < dataset.headers.length := by
  have sublist := List.take_sublist record.length dataset.headers
  rw [names_row_of, first_mentions_of_nodup (distinct.sublist sublist), Ne,
    List.take_eq_self_iff, Nat.not_le]

theorem exists_short_record_iff (distinct : dataset.headers.Nodup) {records : List (List String)}
    (rows : dataset.rows = records.map (rowOf dataset.headers)) :
    (¬∀ row ∈ dataset.rows.filter (Query.keeps ⟨.wildcard, filter⟩),
        row.names = dataset.headers) ↔
      ∃ record ∈ records, Query.Wants ⟨.wildcard, filter⟩ (cellValue dataset.headers record) ∧
        record.length < dataset.headers.length := by
  have kept (record : List String) :
      Query.keeps ⟨.wildcard, filter⟩ (rowOf dataset.headers record) = true ↔
        Query.Wants ⟨.wildcard, filter⟩ (cellValue dataset.headers record) := by
    rw [Query.keeps_iff, get_row_of_eq]
  simp only [rows, List.mem_filter, List.mem_map]
  push Not
  constructor
  · rintro ⟨row, ⟨⟨record, member, rfl⟩, keeps⟩, other⟩
    exact ⟨record, member, (kept record).1 keeps, (names_row_of_ne_iff distinct record).1 other⟩
  · rintro ⟨record, member, wanted, short⟩
    exact ⟨rowOf dataset.headers record, ⟨⟨record, member, rfl⟩, (kept record).2 wanted⟩,
      (names_row_of_ne_iff distinct record).2 short⟩

/-- Over distinct headers the list of all of them does what the wildcard does, except that it makes
a missing field an absent one. -/
theorem agrees_on_all_headers (distinct : dataset.headers.Nodup) :
    AgreesOnAllHeaders dataset filter (Query.execute ⟨.wildcard, filter⟩ dataset.rows)
      (Query.execute ⟨.named dataset.headers, filter⟩ dataset.rows) := by
  have whole : Query.execute ⟨.wildcard, filter⟩ dataset.rows =
      dataset.rows.filter (Query.keeps ⟨.wildcard, filter⟩) := List.map_id' _
  have listed : Query.execute ⟨.named dataset.headers, filter⟩ dataset.rows =
      (dataset.rows.filter (Query.keeps ⟨.wildcard, filter⟩)).map
        fun row => row.project dataset.headers := rfl
  rw [whole, listed]
  constructor
  · exact ⟨rfl, rfl⟩
  · intro coloured
    apply Table.render_map
    intro row _ header member
    rw [Row.get_project, if_pos member]
  · intro layout
    exact render_map_project_iff distinct layout _
  · intro options bytes read
    rcases exists_records_of_read read with ⟨records, split, rows⟩
    refine ⟨records, split, ?_⟩
    intro layout
    rw [Ne, render_map_project_iff distinct layout]
    exact exists_short_record_iff filter distinct rows

/-- Of two short records the filter keeps one. -/
theorem agrees_on_all_headers_short_record :
    let bytes := Utf8.encode "name,age\nAna,30\nBob\nCem\n".toList
    let headers := ["name", "age"]
    let dataset : Dataset := ⟨headers, [rowOf headers ["Ana", "30"], rowOf headers ["Bob"],
      rowOf headers ["Cem"]]⟩
    let filter : Option (Condition Literal) := some ⟨"name", .less, .string "Ce"⟩
    let whole := Query.execute ⟨.wildcard, filter⟩ dataset.rows
    let listed := Query.execute ⟨.named headers, filter⟩ dataset.rows
    Dataset.read ⟨44, false⟩ bytes = .ok dataset ∧ headers.Nodup ∧
      Table.render true headers listed = Table.render true headers whole ∧
      Json.render .compact listed ≠ Json.render .compact whole := by
  intro bytes headers dataset filter whole listed
  have read : Dataset.read ⟨44, false⟩ bytes = .ok dataset := eq_ok_of_toOption (by decide +kernel)
  have distinct : headers.Nodup := by decide
  have agrees : AgreesOnAllHeaders dataset filter whole listed :=
    agrees_on_all_headers filter distinct
  have recordsRead : readRecords ⟨44, false⟩ bytes =
      .ok (headers, [["Ana", "30"], ["Bob"], ["Cem"]]) := eq_ok_of_toOption (by decide +kernel)
  obtain ⟨records, split, differ⟩ := agrees.loaded _ _ read
  cases split.symm.trans recordsRead
  refine ⟨read, distinct, agrees.table true, (differ .compact).2 ⟨["Bob"], ?_⟩⟩
  decide +kernel

end Agreement

end TableQuery
