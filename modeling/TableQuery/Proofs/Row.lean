import TableQuery.Row
import TableQuery.Proofs.FirstMention

/-!
A row that is built field by field, or name by name out of another row. Its names are the given
names in the order of their first mention. Under each name stands the last value that was given for
it, or the value in the other row.
-/

namespace TableQuery

def valuesOf (name : String) (fields : List Field) : List Value :=
  (fields.filter fun field => field.1 = name).map Prod.snd

namespace Row

theorem names_foldl_insert (row : Row) (fields : List Field) :
    (fields.foldl (fun row field => row.insert field.1 field.2) row).names =
      (fields.map Prod.fst).foldl noteMention row.names := by
  induction fields generalizing row with
  | nil => rfl
  | cons field rest induction =>
      rw [List.foldl_cons, induction, List.map_cons, List.foldl_cons, names_insert, noteMention]

/-- The last value counts, and the old one only where no new one is given. -/
theorem get_foldl_insert (row : Row) (fields : List Field) (name : String) :
    (fields.foldl (fun row field => row.insert field.1 field.2) row).get name =
      (valuesOf name fields).getLast?.getD (row.get name) := by
  induction fields generalizing row with
  | nil => rfl
  | cons field rest induction =>
      rw [List.foldl_cons, induction]
      by_cases same : field.1 = name
      · have found : valuesOf name (field :: rest) = field.2 :: valuesOf name rest := by
          simp [valuesOf, same]
        have replaced : (row.insert field.1 field.2).get name = field.2 := by
          rw [same, get_insert_self]
        rw [found, replaced, List.getLast?_cons, Option.getD_some]
      · have skipped : valuesOf name (field :: rest) = valuesOf name rest := by
          simp [valuesOf, same]
        have kept : (row.insert field.1 field.2).get name = row.get name :=
          get_insert_of_ne row field.2 fun equal => same equal.symm
        rw [skipped, kept]

theorem names_of_list (fields : List Field) :
    (ofList fields).names = firstMentions (fields.map Prod.fst) := by
  rw [ofList, names_foldl_insert, ← collect_mentions_eq]
  rfl

theorem get_of_list (fields : List Field) (name : String) :
    (ofList fields).get name = (valuesOf name fields).getLast?.getD .absent :=
  get_foldl_insert empty fields name

/-- A row is no more than its names and the value under each, since no name stands in it twice. So
two rows are compared by names and values. -/
theorem fields_eq_map (row : Row) :
    row.fields = row.names.map fun name => (name, row.get name) := by
  obtain ⟨fields, distinct⟩ := row
  simp only [names, get]
  induction fields with
  | nil => rfl
  | cons field rest induction =>
      simp only [fieldNames, List.map_cons, List.nodup_cons] at distinct ⊢
      have first : fieldValue field.1 (field :: rest) = field.2 := by
        rw [fieldValue, if_pos rfl]
      have later : ∀ name ∈ List.map Prod.fst rest,
          fieldValue name (field :: rest) = fieldValue name rest := by
        intro name member
        have other : field.1 ≠ name := fun same => distinct.1 (same ▸ member)
        rw [fieldValue, if_neg other]
      have tail := induction distinct.2
      rw [first]
      congr 1
      rw [List.map_congr_left fun name member => by rw [later name member]]
      exact tail

theorem eq_of_fields {row other : Row} (same : row.fields = other.fields) : row = other := by
  cases row
  cases other
  cases same
  rfl

theorem eq_of_get {row other : Row} (names : row.names = other.names)
    (values : ∀ name ∈ other.names, row.get name = other.get name) : row = other := by
  apply eq_of_fields
  rw [row.fields_eq_map, other.fields_eq_map, names]
  apply List.map_congr_left
  intro name member
  rw [values name member]

section Projection

variable {row projected : Row}

theorem names_copy_field (name : String) :
    (row.copyField projected name).names = noteMention projected.names name := by
  rw [copyField, noteMention]
  by_cases known : name ∈ projected.names
  · rw [if_pos (contains_iff.2 known), if_pos known]
  · rw [if_neg (mt contains_iff.1 known), names_insert]

@[simp] theorem names_project (row : Row) (names : List String) :
    (row.project names).names = firstMentions names := by
  rw [project, ← List.foldl_hom Row.names fun _ name => (names_copy_field name).symm,
    ← collect_mentions_eq]
  rfl

def Copies (row projected : Row) : Prop :=
  ∀ name ∈ projected.names, projected.get name = row.get name

theorem copies_copy_field (copied : row.Copies projected) (name : String) :
    row.Copies (row.copyField projected name) := by
  rw [copyField]
  split
  · exact copied
  · rename_i missing
    have names : (projected.insert name (row.get name)).names = projected.names ++ [name] := by
      rw [names_insert, if_neg (mt contains_iff.2 missing)]
    intro other member
    rw [names, List.mem_append, List.mem_singleton] at member
    by_cases same : other = name
    · rw [same, get_insert_self]
    · rw [get_insert_of_ne _ _ same, copied other (member.resolve_right same)]

theorem copies_project (row : Row) (names : List String) : row.Copies (row.project names) := by
  have start : row.Copies empty := by
    intro name member
    cases member
  rw [project]
  generalize empty = projected at start
  induction names generalizing projected with
  | nil => exact start
  | cons name rest induction => exact induction _ (copies_copy_field start name)

theorem get_project (row : Row) (names : List String) (name : String) :
    (row.project names).get name = if name ∈ names then row.get name else .absent := by
  by_cases wanted : name ∈ names
  · rw [if_pos wanted]
    exact copies_project row names name (by simpa using wanted)
  · rw [if_neg wanted]
    exact get_eq_absent_of_not_mem (by simpa using wanted)

theorem fields_project (row : Row) (names : List String) :
    (row.project names).fields = (firstMentions names).map fun name => (name, row.get name) := by
  rw [fields_eq_map, names_project]
  apply List.map_congr_left
  intro name member
  rw [get_project, if_pos (mem_first_mentions.1 member)]

theorem project_project_self (row : Row) (names : List String) :
    (row.project names).project names = row.project names := by
  apply eq_of_get
  · rw [names_project, names_project]
  · intro name member
    rw [names_project, mem_first_mentions] at member
    rw [get_project, if_pos member]

end Projection

end Row

end TableQuery
