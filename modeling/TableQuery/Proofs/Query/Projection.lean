import Mathlib.Data.List.Forall2
import TableQuery.Proofs.Row
import TableQuery.Query.Evaluation

/-!
One projection after another, and projections on lists that mention the same names. What the first
projection leaves out, the second one finds absent. The order and the repetitions of the names
decide the order of the fields and nothing else.
-/

namespace TableQuery

namespace Row

/-- The same names in the same order, with the value of every name outside the list made absent. It
is what a first projection hides from a second one. -/
def showOnly (row : Row) (shown : List String) : Row where
  fields := row.fields.map fun field => (field.1, if field.1 ∈ shown then field.2 else .absent)
  distinct_names := by
    rw [fieldNames, List.map_map]
    exact row.distinct_names

@[simp] theorem names_show_only (row : Row) (shown : List String) :
    (row.showOnly shown).names = row.names := by
  rw [names, names, showOnly, fieldNames, List.map_map]
  rfl

theorem get_show_only (row : Row) (shown : List String) (name : String) :
    (row.showOnly shown).get name = if name ∈ shown then row.get name else .absent := by
  obtain ⟨fields, distinct⟩ := row
  simp only [showOnly, get]
  clear distinct
  induction fields with
  | nil => rw [List.map_nil, fieldValue, ite_self]
  | cons field rest induction =>
      rw [List.map_cons, fieldValue, fieldValue]
      by_cases same : field.1 = name
      · simp only [same, if_true]
      · simp only [same, if_false]
        exact induction

/-- A name is found in the second row only if both lists mention it. -/
theorem project_project (row : Row) (first second : List String) :
    (row.project first).project second = (row.project second).showOnly first := by
  apply eq_of_get
  · rw [names_show_only, names_project, names_project]
  · intro name member
    rw [names_show_only, names_project, mem_first_mentions] at member
    simp only [get_show_only, get_project, if_pos member]

/-- The first projection changes nothing exactly if it leaves out only what is absent anyway. -/
theorem project_project_eq_iff {row : Row} {first second : List String} :
    (row.project first).project second = row.project second ↔
      ∀ name ∈ second, name ∈ first ∨ row.get name = .absent := by
  constructor
  · intro same name member
    by_cases kept : name ∈ first
    · exact .inl kept
    · have value := congrArg (fun projected => projected.get name) same
      simp only [get_project, if_pos member, if_neg kept] at value
      exact .inr value.symm
  · intro covered
    apply eq_of_get
    · rw [names_project, names_project]
    · intro name member
      rw [names_project, mem_first_mentions] at member
      simp only [get_project, if_pos member]
      cases covered name member with
      | inl kept => rw [if_pos kept]
      | inr absent => rw [absent, ite_self]

def SameFields (row other : Row) : Prop := row.fields.Perm other.fields

theorem same_fields_project {first second : List String}
    (same : ∀ name, name ∈ first ↔ name ∈ second) (row : Row) :
    (row.project first).SameFields (row.project second) := by
  rw [SameFields, fields_project, fields_project]
  exact (first_mentions_perm same).map _

end Row

/-- Two projections of one row: the same fields, each list deciding the order of its own row. -/
structure DiffersInOrder (first second : List String) (row other : Row) : Prop where
  fields : row.SameFields other
  names : ListsMentions first (fun _ => True) row.names
  otherNames : ListsMentions second (fun _ => True) other.names

theorem differs_in_order_project {first second : List String}
    (same : ∀ name, name ∈ first ↔ name ∈ second) (row : Row) :
    DiffersInOrder first second (row.project first) (row.project second) where
  fields := Row.same_fields_project same row
  names := by
    rw [Row.names_project]
    exact lists_mentions_first_mentions first
  otherNames := by
    rw [Row.names_project]
    exact lists_mentions_first_mentions second

theorem Query.execute_named (names : List String) (filter : Option (Condition Literal))
    (rows : List Row) :
    Query.execute ⟨.named names, filter⟩ rows =
      (Query.execute ⟨.wildcard, filter⟩ rows).map fun row => row.project names := by
  rw [execute, execute, List.map_map]
  rfl

/-- A second projection finds absent what the first one left out. Lists that mention the same names
give rows with the same fields, each in the order of its own list, and queries for them keep the
same rows. -/
theorem projections_compose (first second : List String) :
    (∀ row : Row,
      (row.project first).project second = (row.project second).showOnly first ∧
      ((row.project first).project second = row.project second ↔
        ∀ name ∈ second, name ∈ first ∨ row.get name = .absent)) ∧
    ((∀ name, name ∈ first ↔ name ∈ second) →
      (∀ row : Row, DiffersInOrder first second (row.project first) (row.project second)) ∧
      ∀ filter rows,
        let kept := Query.execute ⟨.wildcard, filter⟩ rows
        Query.execute ⟨.named first, filter⟩ rows = kept.map (fun row => row.project first) ∧
        Query.execute ⟨.named second, filter⟩ rows = kept.map (fun row => row.project second) ∧
        List.Forall₂ (DiffersInOrder first second) (Query.execute ⟨.named first, filter⟩ rows)
          (Query.execute ⟨.named second, filter⟩ rows)) := by
  constructor
  · intro row
    exact ⟨row.project_project first second, Row.project_project_eq_iff⟩
  · intro same
    refine ⟨differs_in_order_project same, ?_⟩
    intro filter rows kept
    have left := Query.execute_named first filter rows
    have right := Query.execute_named second filter rows
    refine ⟨left, right, ?_⟩
    rw [left, right, List.forall₂_map_left_iff, List.forall₂_map_right_iff, List.forall₂_same]
    intro row _
    exact differs_in_order_project same row

/-- Repeated names, a name that the row lacks and one that is there with an absent value. -/
theorem projections_compose_repeated_names :
    let full := Row.ofList [("b", .absent), ("a", .string "x"), ("c", .number .nan)]
    let rows := [full, Row.empty, Row.ofList [("a", .string "y")]]
    let condition : Condition Literal := ⟨"a", .less, .string "y"⟩
    (full.project ["a"]).project ["c", "b", "d"] =
      Row.ofList [("c", .absent), ("b", .absent), ("d", .absent)] ∧
    (full.project ["c"]).project ["c", "b", "d"] = full.project ["c", "b", "d"] ∧
    (∀ name, name ∈ ["a", "d", "b", "a"] ↔ name ∈ ["b", "b", "a", "d"]) ∧
    List.Forall₂ (DiffersInOrder ["a", "d", "b", "a"] ["b", "b", "a", "d"])
      (Query.execute ⟨.named ["a", "d", "b", "a"], some condition⟩ rows)
      (Query.execute ⟨.named ["b", "b", "a", "d"], some condition⟩ rows) ∧
    Query.execute ⟨.named ["b", "b", "a", "d"], some condition⟩ rows =
      [Row.ofList [("b", .absent), ("a", .string "x"), ("d", .absent)]] := by
  intro full rows condition
  have same : ∀ name, name ∈ ["a", "d", "b", "a"] ↔ name ∈ ["b", "b", "a", "d"] := by
    intro name
    grind
  have covered : ∀ name ∈ ["c", "b", "d"], name ∈ ["c"] ∨ full.get name = .absent := by decide
  have hidden := ((projections_compose ["a"] ["c", "b", "d"]).1 full).1
  refine ⟨?_, ?_, same, ?_, by decide +kernel⟩
  · rw [hidden]
    decide +kernel
  · exact (((projections_compose ["c"] ["c", "b", "d"]).1 full).2).2 covered
  · exact (((projections_compose _ _).2 same).2 (some condition) rows).2.2

end TableQuery
