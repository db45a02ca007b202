import Mathlib.Data.Finset.Card
import Mathlib.Logic.Function.Basic
import TableQuery.Proofs.Row

/-!
A row against the map that it stands for. The map says which names there are, in which order, and
what is found under each, and has no fields to be kept apart by their names. Operations on the row
go in step with operations on the map, and whatever is asked of the row, the map has the answer.
-/

namespace TableQuery

structure OrderedMap where
  keys : List String
  lookup : String → Value

namespace OrderedMap

def empty : OrderedMap := ⟨[], fun _ => .absent⟩

def insert (map : OrderedMap) (name : String) (value : Value) : OrderedMap where
  keys := if name ∈ map.keys then map.keys else map.keys ++ [name]
  lookup := Function.update map.lookup name value

def ofList (fields : List Field) : OrderedMap where
  keys := firstMentions (fieldNames fields)
  lookup name := (valuesOf name fields).getLast?.getD .absent

def project (map : OrderedMap) (names : List String) : OrderedMap where
  keys := firstMentions names
  lookup name := if name ∈ names then map.lookup name else .absent

theorem lookup_insert_self (map : OrderedMap) (name : String) (value : Value) :
    (map.insert name value).lookup name = value := Function.update_self ..

theorem lookup_insert_of_ne (map : OrderedMap) {name other : String} (value : Value)
    (different : other ≠ name) : (map.insert name value).lookup other = map.lookup other :=
  Function.update_of_ne different ..

/-- Each name once, and nothing under any other name. A map that is not sound could list a name
twice or hold a value that no listing shows. -/
structure Sound (map : OrderedMap) : Prop where
  distinct : map.keys.Nodup
  missing : ∀ name, name ∉ map.keys → map.lookup name = .absent

theorem sound_empty : empty.Sound := ⟨List.nodup_nil, fun _ _ => rfl⟩

theorem Sound.insert {map : OrderedMap} (sound : map.Sound) (name : String) (value : Value) :
    (map.insert name value).Sound := by
  by_cases known : name ∈ map.keys
  · have keys : (map.insert name value).keys = map.keys := if_pos known
    constructor
    · rw [keys]
      exact sound.distinct
    · intro other unknown
      rw [keys] at unknown
      have different : other ≠ name := fun same => unknown (same ▸ known)
      rw [lookup_insert_of_ne map value different, sound.missing other unknown]
  · have keys : (map.insert name value).keys = map.keys ++ [name] := if_neg known
    constructor
    · rw [keys, ← List.concat_eq_append, List.nodup_concat]
      exact ⟨known, sound.distinct⟩
    · intro other unknown
      rw [keys, List.mem_append, List.mem_singleton, not_or] at unknown
      rw [lookup_insert_of_ne map value unknown.2, sound.missing other unknown.1]

theorem sound_of_list (fields : List Field) : (ofList fields).Sound where
  distinct := (lists_mentions_first_mentions _).nodup
  missing := by
    intro name unknown
    have noValues : valuesOf name fields = [] := by
      rw [ofList, mem_first_mentions, fieldNames] at unknown
      rw [valuesOf, List.map_eq_nil_iff, List.filter_eq_nil_iff]
      intro field member same
      exact unknown (of_decide_eq_true same ▸ List.mem_map_of_mem member)
    dsimp only [ofList]
    rw [noValues]
    rfl

theorem sound_project (map : OrderedMap) (names : List String) : (map.project names).Sound where
  distinct := (lists_mentions_first_mentions names).nodup
  missing := by
    intro name unknown
    rw [project, mem_first_mentions] at unknown
    exact if_neg unknown

end OrderedMap

inductive RowOperation where
  | new
  | ofList (fields : List Field)
  | insert (name : String) (value : Value)
  | project (names : List String)

namespace RowOperation

def onRow : RowOperation → Row → Row
  | new, _ => .empty
  | ofList fields, _ => .ofList fields
  | insert name value, row => row.insert name value
  | project names, row => row.project names

def onMap : RowOperation → OrderedMap → OrderedMap
  | new, _ => .empty
  | ofList fields, _ => .ofList fields
  | insert name value, map => map.insert name value
  | project names, map => map.project names

end RowOperation

def Row.after (operations : List RowOperation) : Row :=
  operations.foldl (fun row operation => operation.onRow row) .empty

def OrderedMap.after (operations : List RowOperation) : OrderedMap :=
  operations.foldl (fun map operation => operation.onMap map) .empty

/-- The row has the names of the map in its order, and the values of the map under them. Every
question about a row can be answered from these two. -/
structure StandsFor (row : Row) (map : OrderedMap) : Prop where
  names : row.names = map.keys
  get : ∀ name, row.get name = map.lookup name

namespace StandsFor

variable {row : Row} {map : OrderedMap}

theorem empty : StandsFor .empty .empty := ⟨rfl, fun _ => rfl⟩

theorem of_list (fields : List Field) : StandsFor (.ofList fields) (.ofList fields) where
  names := Row.names_of_list fields
  get := Row.get_of_list fields

theorem insert (stands : StandsFor row map) (name : String) (value : Value) :
    StandsFor (row.insert name value) (map.insert name value) where
  names := by rw [Row.names_insert, stands.names, OrderedMap.insert]
  get := by
    intro other
    by_cases same : other = name
    · rw [same, Row.get_insert_self, OrderedMap.lookup_insert_self]
    · rw [Row.get_insert_of_ne row value same, OrderedMap.lookup_insert_of_ne map value same,
        stands.get]

theorem project (stands : StandsFor row map) (names : List String) :
    StandsFor (row.project names) (map.project names) where
  names := Row.names_project row names
  get := by
    intro name
    rw [Row.get_project, OrderedMap.project, stands.get]

end StandsFor

theorem RowOperation.sound_on_map {map : OrderedMap} (sound : map.Sound)
    (operation : RowOperation) : (operation.onMap map).Sound := by
  cases operation with
  | new => exact OrderedMap.sound_empty
  | ofList fields => exact OrderedMap.sound_of_list fields
  | insert name value => exact sound.insert name value
  | project names => exact map.sound_project names

theorem RowOperation.stands_for {row : Row} {map : OrderedMap} (stands : StandsFor row map)
    (operation : RowOperation) : StandsFor (operation.onRow row) (operation.onMap map) := by
  cases operation with
  | new => exact .empty
  | ofList fields => exact .of_list fields
  | insert name value => exact stands.insert name value
  | project names => exact stands.project names

theorem OrderedMap.sound_after (operations : List RowOperation) : (after operations).Sound := by
  rw [after]
  generalize OrderedMap.empty = map, OrderedMap.sound_empty = sound
  induction operations generalizing map with
  | nil => exact sound
  | cons operation rest induction => exact induction _ (operation.sound_on_map sound)

theorem Row.after_stands_for (operations : List RowOperation) :
    StandsFor (after operations) (.after operations) := by
  rw [after, OrderedMap.after]
  generalize Row.empty = row, OrderedMap.empty = map, StandsFor.empty = stands
  induction operations generalizing row map with
  | nil => exact stands
  | cons operation rest induction => exact induction _ _ (operation.stands_for stands)

structure AnswersAs (row : Row) (map : OrderedMap) : Prop where
  distinct : row.names.Nodup
  names : row.names = map.keys
  get : ∀ name, row.get name = map.lookup name
  fields : row.fields = map.keys.map fun name => (name, map.lookup name)
  contains : ∀ name, row.contains name = true ↔ name ∈ map.keys
  size : row.size = map.keys.toFinset.card

theorem answers_as_of_stands_for {row : Row} {map : OrderedMap} (sound : map.Sound)
    (stands : StandsFor row map) : AnswersAs row map where
  distinct := by
    rw [stands.names]
    exact sound.distinct
  names := stands.names
  get := stands.get
  fields := by
    rw [row.fields_eq_map, stands.names]
    apply List.map_congr_left
    intro name _
    rw [stands.get]
  contains := by
    intro name
    rw [Row.contains_iff, stands.names]
  size := by
    rw [List.toFinset_card_of_nodup sound.distinct, ← stands.names, Row.names, fieldNames,
      List.length_map, Row.size]

/-- After any operations a row answers as the map does that went through the same ones, and the map
has each name once. -/
theorem row_is_ordered_map (operations : List RowOperation) :
    (OrderedMap.after operations).Sound ∧
      AnswersAs (Row.after operations) (OrderedMap.after operations) := by
  have sound := OrderedMap.sound_after operations
  exact ⟨sound, answers_as_of_stands_for sound (Row.after_stands_for operations)⟩

end TableQuery
