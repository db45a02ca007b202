import TableQuery.Session.Basic
import TableQuery.Proofs.Delimited.Records
import TableQuery.Proofs.Query.Comparison

/-!
What an answer says about the delimited bytes behind the session. The records that satisfy the
condition are answered in their order, one row each, and a row pairs every wanted name with the cell
that the record has under it.
-/

namespace TableQuery

open Delimited

def Fields.columns (headers : List String) (width : Nat) : Fields → List String
  | wildcard => firstMentions (headers.take width)
  | named names => firstMentions names

theorem fields_select_row_of (fields : Fields) (headers record : List String) :
    (fields.select (rowOf headers record)).fields =
      (fields.columns headers record.length).map fun name =>
        (name, cellValue headers record name) := by
  cases fields with
  | wildcard =>
      rw [Fields.select, Row.fields_eq_map, names_row_of, Fields.columns]
      simp only [get_row_of]
  | named names =>
      rw [Fields.select, Row.fields_project, Fields.columns]
      simp only [get_row_of]

theorem get_row_of_eq (headers record : List String) :
    (rowOf headers record).get = cellValue headers record := by
  funext name
  exact get_row_of headers record name

theorem fields_execute_map_row_of (query : Query Literal) (headers : List String)
    (records : List (List String)) :
    (query.execute (records.map (rowOf headers))).map Row.fields =
      (records.filter fun record => query.Wants (cellValue headers record)).map fun record =>
        (query.fields.columns headers record.length).map fun name =>
          (name, cellValue headers record name) := by
  have kept : query.keeps ∘ rowOf headers =
      fun record => decide (query.Wants (cellValue headers record)) := by
    funext record
    rw [Bool.eq_iff_iff, decide_eq_true_iff, ← get_row_of_eq]
    exact query.keeps_iff _
  rw [Query.execute, List.filter_map, kept, List.map_map, List.map_map]
  apply List.map_congr_left
  intro record _
  exact fields_select_row_of query.fields headers record

theorem Session.answer_eq_ok {session : Session} {text : String} {answer : Answer}
    (answered : session.answer text = .ok answer) :
    Query.read text = .ok answer.query ∧
      answer.headers = session.headers answer.query.fields ∧
      answer.rows = answer.query.execute session.dataset.rows := by
  obtain ⟨query, read, answered⟩ := exists_of_bind_eq_ok answered
  have accepted := eq_ok_of_mapError read
  dsimp only at answered
  split at answered
  · cases answered
    exact ⟨accepted, rfl, rfl⟩
  · cases answered

/-- An answer has one row for each record that satisfies the condition, with the cells that stand
under the wanted names. -/
theorem Session.fields_rows_of_answer {options : ReadOptions} {bytes : List UInt8}
    {session : Session} {text : String} {answer : Answer}
    (loaded : Dataset.read options bytes = .ok session.dataset)
    (answered : session.answer text = .ok answer) :
    Query.read text = .ok answer.query ∧
      ∃ headers records, readRecords options bytes = .ok (headers, records) ∧
        answer.rows.map Row.fields =
          (records.filter fun record => answer.query.Wants (cellValue headers record)).map
            fun record => (answer.query.fields.columns headers record.length).map fun name =>
              (name, cellValue headers record name) := by
  obtain ⟨read, -, executed⟩ := answer_eq_ok answered
  obtain ⟨records, split, rows⟩ := exists_records_of_read loaded
  refine ⟨read, session.dataset.headers, records, split, ?_⟩
  rw [executed, rows]
  exact fields_execute_map_row_of answer.query session.dataset.headers records

/-- Two records under a repeated header. The second one is short, so its last cell under that header
is its first; the condition leaves only the other record. -/
theorem Session.fields_rows_of_answer_repeated_header :
    ∃ (session : Session) (answer : Answer),
      Dataset.read ⟨44, false⟩ (Utf8.encode "n,city,n\nAda,Bern,7\nBob,Rome\n".toList) =
        .ok session.dataset ∧
      session.answer "PROJECT n, city FILTER city = `Bern`" = .ok answer ∧
      answer.rows.map Row.fields = [[("n", .coerce "7"), ("city", .string "Bern")]] := by
  let headers := ["n", "city", "n"]
  let ada := ["Ada", "Bern", "7"]
  let bob := ["Bob", "Rome"]
  let dataset : Dataset := ⟨headers, [rowOf headers ada, rowOf headers bob]⟩
  let answer : Answer :=
    ⟨⟨.named ["n", "city"], some ⟨"city", .equal, .string "Bern"⟩⟩, ["n", "city"],
      [(rowOf headers ada).project ["n", "city"]]⟩
  have loaded : Dataset.read ⟨44, false⟩
      (Utf8.encode "n,city,n\nAda,Bern,7\nBob,Rome\n".toList) = .ok dataset :=
    eq_ok_of_toOption (by decide +kernel)
  have answered : (Session.mk dataset .table false).answer
      "PROJECT n, city FILTER city = `Bern`" = .ok answer :=
    eq_ok_of_toOption (by decide +kernel)
  have records : readRecords ⟨44, false⟩
      (Utf8.encode "n,city,n\nAda,Bern,7\nBob,Rome\n".toList) = .ok (headers, [ada, bob]) :=
    eq_ok_of_toOption (by decide +kernel)
  refine ⟨⟨dataset, .table, false⟩, answer, loaded, answered, ?_⟩
  obtain ⟨-, others, found, split, rows⟩ := fields_rows_of_answer loaded answered
  obtain ⟨rfl, rfl⟩ := Prod.mk.inj (Except.ok.inj (records.symm.trans split))
  rw [rows]
  decide +kernel

end TableQuery
