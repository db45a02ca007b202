import TableQuery.Proofs.Row
import TableQuery.Query.Evaluation

/-!
The two stages of a query, and queries one after the other. A projection leaves the cells under its
names as they are, so a condition on one of these names may be asked before it or behind it. On any
other name there is nothing left to compare. A query that can still see its own condition changes
nothing when it runs on its result.
-/

namespace TableQuery

namespace Fields

/-- Whether a selection leaves the cell under a name as it is. -/
def Shows (name : String) : Fields → Prop
  | wildcard => True
  | named names => name ∈ names

theorem get_select {fields : Fields} {name : String} (shown : fields.Shows name) (row : Row) :
    (fields.select row).get name = row.get name := by
  cases fields with
  | wildcard => rfl
  | named names =>
      rw [select, Row.get_project]
      exact if_pos shown

theorem select_select (fields : Fields) (row : Row) :
    fields.select (fields.select row) = fields.select row := by
  cases fields with
  | wildcard => rfl
  | named names => exact row.project_project_self names

end Fields

theorem Condition.holds_select {condition : Condition Literal} {fields : Fields}
    (shown : fields.Shows condition.field) (row : Row) :
    condition.holds (fields.select row) = condition.holds row := by
  rw [holds, holds, Fields.get_select shown]

theorem Condition.holds_project_of_not_mem {condition : Condition Literal} {names : List String}
    (hidden : condition.field ∉ names) (row : Row) :
    condition.holds (row.project names) = false := by
  rw [holds, Row.get_project, if_neg hidden]
  exact Comparator.accepts_none _

namespace Query

variable {query : Query Literal} {rows : List Row}

/-- Two queries one after the other ask the second condition of what the first one selects.
Everything about queries in stages follows from this equation. -/
theorem execute_execute (first second : Query Literal) (rows : List Row) :
    second.execute (first.execute rows) =
      (rows.filter fun row => first.keeps row && second.keeps (first.fields.select row)).map
        fun row => second.fields.select (first.fields.select row) := by
  have both : (rows.filter first.keeps).filter (second.keeps ∘ first.fields.select) =
      rows.filter fun row => first.keeps row && second.keeps (first.fields.select row) := by
    rw [List.filter_filter]
    apply List.filter_congr
    intro row _
    exact Bool.and_comm _ _
  rw [execute, execute, List.filter_map, both, List.map_map]
  rfl

def ShowsFilter (query : Query Literal) : Prop :=
  ∀ condition ∈ query.filter, query.fields.Shows condition.field

theorem keeps_select (shows : query.ShowsFilter) (row : Row) :
    query.keeps (query.fields.select row) = query.keeps row := by
  obtain ⟨fields, filter⟩ := query
  cases filter with
  | none => rfl
  | some condition => exact Condition.holds_select (shows condition rfl) row

theorem execute_execute_self (shows : query.ShowsFilter) :
    query.execute (query.execute rows) = query.execute rows := by
  rw [execute_execute, execute]
  have sameRows :
      (rows.filter fun row => query.keeps row && query.keeps (query.fields.select row)) =
        rows.filter query.keeps := by
    apply List.filter_congr
    intro row _
    rw [keeps_select shows, Bool.and_self]
  rw [sameRows]
  apply List.map_congr_left
  intro row _
  exact query.fields.select_select row

end Query

/-- A condition on a projected name may be asked of the projected rows, and on any other name they
all fail it. A query without a filter, with the wildcard or with its filter field among its names
gives its own result again. -/
theorem filter_commutes_with_projection (rows : List Row) (names : List String)
    (condition : Condition Literal) :
    (condition.field ∈ names →
      Query.execute ⟨.named names, some condition⟩ rows =
        Query.execute ⟨.wildcard, some condition⟩ (Query.execute ⟨.named names, none⟩ rows)) ∧
    (condition.field ∉ names →
      Query.execute ⟨.wildcard, some condition⟩ (Query.execute ⟨.named names, none⟩ rows) = []) ∧
    ∀ query : Query Literal,
      (query.fields = .wildcard ∨ query.filter = none ∨ ∃ kept asked,
        query.fields = .named kept ∧ query.filter = some asked ∧ asked.field ∈ kept) →
      query.execute (query.execute rows) = query.execute rows := by
  refine ⟨?_, ?_, ?_⟩
  · intro shown
    rw [Query.execute_execute, Query.execute]
    have sameRows : (rows.filter fun row => Query.keeps ⟨.named names, none⟩ row &&
        Query.keeps ⟨.wildcard, some condition⟩ (Fields.select (.named names) row)) =
          rows.filter (Query.keeps ⟨.named names, some condition⟩) := by
      apply List.filter_congr
      intro row _
      have shows : (Fields.named names).Shows condition.field := shown
      exact Condition.holds_select shows row
    rw [sameRows]
    rfl
  · intro hidden
    rw [Query.execute_execute, List.map_eq_nil_iff, List.filter_eq_nil_iff]
    intro row _
    rw [Bool.not_eq_true]
    exact Condition.holds_project_of_not_mem hidden row
  · intro query visible
    apply Query.execute_execute_self
    intro condition filtered
    rcases visible with wildcard | unfiltered | ⟨kept, asked, named, filter, shown⟩
    · rw [wildcard]
      trivial
    · rw [unfiltered] at filtered
      cases filtered
    · rw [filter] at filtered
      cases filtered
      rw [named]
      exact shown

/-- A repeated name over ragged rows: only the first row passes, and it becomes a row of two fields.
Without the filter field among the names nothing passes. -/
theorem filter_commutes_with_projection_ragged :
    let full := Row.ofList [("a", .string "k"), ("c", .absent), ("b", .number .nan)]
    let rows := [full, Row.ofList [("b", .string "x")], Row.empty]
    let condition : Condition Literal := ⟨"a", .lessEqual, .string "m"⟩
    let query : Query Literal := ⟨.named ["b", "a", "b"], some condition⟩
    query.execute rows = Query.execute ⟨.wildcard, some condition⟩
        (Query.execute ⟨.named ["b", "a", "b"], none⟩ rows) ∧
      Query.execute ⟨.wildcard, some condition⟩ (Query.execute ⟨.named ["b"], none⟩ rows) = [] ∧
      query.execute (query.execute rows) = query.execute rows ∧
      query.execute rows = [Row.ofList [("b", .number .nan), ("a", .string "k")]] := by
  intro full rows condition query
  have kept := filter_commutes_with_projection rows ["b", "a", "b"] condition
  have dropped := filter_commutes_with_projection rows ["b"] condition
  refine ⟨kept.1 (by decide), dropped.2.1 (by decide), ?_, by decide +kernel⟩
  exact kept.2.2 query (.inr (.inr ⟨_, condition, rfl, rfl, by decide⟩))

end TableQuery
