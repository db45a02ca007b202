import TableQuery.Value

/-!
A row is a finite map from names to values that remembers the order in which the names came. A name
keeps its first place when its value is replaced.
-/

namespace TableQuery

abbrev Field := String × Value

def fieldNames (fields : List Field) : List String := fields.map Prod.fst

def fieldValue (name : String) : List Field → Value
  | [] => .absent
  | field :: rest => if field.1 = name then field.2 else fieldValue name rest

def insertField (name : String) (value : Value) : List Field → List Field
  | [] => [(name, value)]
  | field :: rest =>
      if field.1 = name then (name, value) :: rest
      else field :: insertField name value rest

theorem field_names_insert_field (name : String) (value : Value) (fields : List Field) :
    fieldNames (insertField name value fields) =
      if name ∈ fieldNames fields then fieldNames fields else fieldNames fields ++ [name] := by
  induction fields with
  | nil => simp [insertField, fieldNames]
  | cons field rest induction =>
      simp only [fieldNames] at induction
      by_cases same : field.1 = name
      · simp [insertField, fieldNames, same]
      · have other : ¬name = field.1 := fun equal => same equal.symm
        simp only [insertField, fieldNames, same, if_false, List.map_cons, induction,
          List.mem_cons, other, false_or]
        by_cases member : name ∈ List.map Prod.fst rest <;> simp [member]

theorem nodup_field_names_insert_field {name : String} {value : Value} {fields : List Field}
    (distinct : (fieldNames fields).Nodup) :
    (fieldNames (insertField name value fields)).Nodup := by
  rw [field_names_insert_field]
  split
  · exact distinct
  · rename_i missing
    rw [List.nodup_append]
    refine ⟨distinct, by simp, ?_⟩
    intro left member right only same
    rw [List.mem_singleton] at only
    exact missing (only ▸ same ▸ member)

theorem field_value_insert_field_self (name : String) (value : Value) (fields : List Field) :
    fieldValue name (insertField name value fields) = value := by
  induction fields with
  | nil => simp [insertField, fieldValue]
  | cons field rest induction =>
      by_cases same : field.1 = name
      · simp [insertField, fieldValue, same]
      · simp [insertField, fieldValue, same, induction]

theorem field_value_insert_field_of_ne {name other : String} (value : Value) (fields : List Field)
    (different : other ≠ name) :
    fieldValue other (insertField name value fields) = fieldValue other fields := by
  have apart : ¬name = other := fun equal => different equal.symm
  induction fields with
  | nil => simp [insertField, fieldValue, apart]
  | cons field rest induction =>
      by_cases same : field.1 = name
      · simp [insertField, fieldValue, same, apart]
      · simp [insertField, fieldValue, same, induction]

theorem field_value_eq_absent_of_not_mem {name : String} {fields : List Field}
    (missing : name ∉ fieldNames fields) : fieldValue name fields = .absent := by
  induction fields with
  | nil => rfl
  | cons field rest induction =>
      simp only [fieldNames, List.map_cons, List.mem_cons, not_or] at missing
      have apart : ¬field.1 = name := fun equal => missing.1 equal.symm
      simp only [fieldValue, apart, if_false]
      exact induction missing.2

structure Row where
  fields : List Field
  distinct_names : (fieldNames fields).Nodup
  deriving DecidableEq

namespace Row

def empty : Row := ⟨[], List.nodup_nil⟩

def insert (row : Row) (name : String) (value : Value) : Row :=
  ⟨insertField name value row.fields, nodup_field_names_insert_field row.distinct_names⟩

/-- Of a repeated name the first place and the last value are kept, as if the fields were inserted
one after the other. -/
def ofList (fields : List Field) : Row :=
  fields.foldl (fun row field => row.insert field.1 field.2) empty

def names (row : Row) : List String := fieldNames row.fields

def get (row : Row) (name : String) : Value := fieldValue name row.fields

/-- A field whose value is absent is still a field. A projection makes such fields, so this is not
the same as having a value. -/
def contains (row : Row) (name : String) : Bool := row.names.contains name

def size (row : Row) : Nat := row.fields.length

def copyField (row projected : Row) (name : String) : Row :=
  if projected.contains name then projected else projected.insert name (row.get name)

/-- A new row with each of the given names once, whether the row has it or not. So all rows of a
result have the same names in the same order. -/
def project (row : Row) (names : List String) : Row := names.foldl row.copyField empty

def equals (left right : Row) : Bool :=
  left.names == right.names &&
    (left.fields.zip right.fields).all fun (leftField, rightField) =>
      leftField.2.equals rightField.2

@[simp] theorem contains_iff {row : Row} {name : String} :
    row.contains name = true ↔ name ∈ row.names := List.contains_iff_mem

@[simp] theorem names_insert (row : Row) (name : String) (value : Value) :
    (row.insert name value).names =
      if name ∈ row.names then row.names else row.names ++ [name] :=
  field_names_insert_field name value row.fields

@[simp] theorem get_insert_self (row : Row) (name : String) (value : Value) :
    (row.insert name value).get name = value :=
  field_value_insert_field_self name value row.fields

theorem get_insert_of_ne (row : Row) {name other : String} (value : Value)
    (different : other ≠ name) : (row.insert name value).get other = row.get other :=
  field_value_insert_field_of_ne value row.fields different

theorem get_eq_absent_of_not_mem {row : Row} {name : String} (missing : name ∉ row.names) :
    row.get name = .absent := field_value_eq_absent_of_not_mem missing

end Row

end TableQuery
