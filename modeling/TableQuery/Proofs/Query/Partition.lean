import Mathlib.Data.List.Basic
import TableQuery.Proofs.Query.Comparison
import TableQuery.Proofs.Query.Sources

/-!
How the signs divide rows by one cell of each. A cell of the literal's kind that is not NaN is less,
equal or greater, and only one of these; the inclusive signs take two of the three together. Every
other cell satisfies no sign. So the three results of the strict signs, merged in the order of the
input, are what is selected of the rows that can be compared at all.
-/

namespace TableQuery

def Literal.asValue : Literal → Value
  | number double => .number double
  | string text => .string text

def Value.IsComparable (value : Value) (literal : Literal) : Prop :=
  value.kind = literal.asValue.kind ∧ value ≠ .number .nan

instance (value : Value) (literal : Literal) : Decidable (value.IsComparable literal) :=
  inferInstanceAs (Decidable (_ ∧ _))

theorem exists_compare?_iff {left right : Binary64} (someNumber : right ≠ .nan) :
    (∃ ordering, left.compare? right = some ordering) ↔ left ≠ .nan := by
  obtain ⟨place, ranked⟩ := Binary64.exists_rank? someNumber
  rw [Binary64.compare?_eq_map ranked]
  constructor
  · rintro ⟨ordering, compared⟩ isNaN
    rw [isNaN] at compared
    cases compared
  · intro leftNumber
    obtain ⟨leftPlace, leftRanked⟩ := Binary64.exists_rank? leftNumber
    exact ⟨compare leftPlace place, by rw [leftRanked]; rfl⟩

theorem exists_compare_to?_iff {literal : Literal} (someNumber : literal ≠ .number .nan)
    (value : Value) :
    (∃ ordering, value.compareTo? literal = some ordering) ↔ value.IsComparable literal := by
  cases value with
  | absent =>
      cases literal <;>
        simp [Value.compareTo?, Value.IsComparable, Literal.asValue, Value.kind]
  | number double =>
      cases literal with
      | number other =>
          have otherNumber : other ≠ .nan := fun same => someNumber (congrArg Literal.number same)
          rw [Value.compareTo?, exists_compare?_iff otherNumber]
          simp [Value.IsComparable, Literal.asValue, Value.kind]
      | string text => simp [Value.compareTo?, Value.IsComparable, Literal.asValue, Value.kind]
  | string text =>
      cases literal <;> simp [Value.compareTo?, Value.IsComparable, Literal.asValue, Value.kind]

namespace Comparator

/-- The signs of which no two hold together. -/
def strict : List Comparator := [less, equal, greater]

def ofOrdering : Ordering → Comparator
  | .lt => less
  | .eq => equal
  | .gt => greater

theorem of_ordering_mem_strict (ordering : Ordering) : ofOrdering ordering ∈ strict := by
  cases ordering <;> decide

theorem accepts_iff_of_mem_strict {sign : Comparator} (isStrict : sign ∈ strict)
    (ordering : Ordering) : sign.accepts (some ordering) = true ↔ sign = ofOrdering ordering := by
  cases sign with
  | less => cases ordering <;> decide
  | equal => cases ordering <;> decide
  | greater => cases ordering <;> decide
  | greaterEqual => exact absurd isStrict (by decide)
  | lessEqual => exact absurd isStrict (by decide)

theorem accepts_greater_equal (outcome : Option Ordering) :
    greaterEqual.accepts outcome = (greater.accepts outcome || equal.accepts outcome) := by
  rcases outcome with missing | ordering
  · rfl
  · cases ordering <;> rfl

theorem accepts_less_equal (outcome : Option Ordering) :
    lessEqual.accepts outcome = (less.accepts outcome || equal.accepts outcome) := by
  rcases outcome with missing | ordering
  · rfl
  · cases ordering <;> rfl

theorem eq_of_accepts {sign other : Comparator} (isStrict : sign ∈ strict)
    (otherStrict : other ∈ strict) {outcome : Option Ordering}
    (holds : sign.accepts outcome = true) (otherHolds : other.accepts outcome = true) :
    sign = other := by
  cases outcome with
  | none =>
      rw [accepts_none] at holds
      cases holds
  | some ordering =>
      rw [(accepts_iff_of_mem_strict isStrict ordering).1 holds,
        (accepts_iff_of_mem_strict otherStrict ordering).1 otherHolds]

theorem exists_unique_accepts (ordering : Ordering) :
    ∃! sign, sign ∈ strict ∧ sign.accepts (some ordering) = true := by
  have isStrict := of_ordering_mem_strict ordering
  refine ⟨ofOrdering ordering, ⟨isStrict, (accepts_iff_of_mem_strict isStrict ordering).2 rfl⟩, ?_⟩
  rintro sign ⟨otherStrict, holds⟩
  exact (accepts_iff_of_mem_strict otherStrict ordering).1 holds

end Comparator

def comparing (fields : Fields) (field : String) (literal : Literal) (sign : Comparator) :
    Query Literal := ⟨fields, some ⟨field, sign, literal⟩⟩

/-- How the signs divide rows by their cells in one field, and what each of them keeps. -/
structure PartitionsRows (rows : List Row) (field : String) (literal : Literal)
    (kept : Comparator → List Source) : Prop where
  exactlyOne : ∀ row, (Row.get row field).IsComparable literal →
    ∃! sign, sign ∈ Comparator.strict ∧ Condition.holds ⟨field, sign, literal⟩ row = true
  otherwise : ∀ row, ¬(Row.get row field).IsComparable literal →
    ∀ sign, Condition.holds ⟨field, sign, literal⟩ row = false
  greaterEqual : kept .greaterEqual = mergeSources (kept .greater) (kept .equal)
  lessEqual : kept .lessEqual = mergeSources (kept .less) (kept .equal)
  disjoint : Comparator.strict.Pairwise fun sign other => (kept sign).Disjoint (kept other)
  merged : mergeSources (mergeSources (kept .less) (kept .equal)) (kept .greater) =
    rows.zipIdx.filter fun source => (source.1.get field).IsComparable literal

section Partition

variable {fields : Fields} {field : String} {literal : Literal} {rows : List Row}

theorem holds_eq_false_of_holds {sign other : Comparator} (isStrict : sign ∈ Comparator.strict)
    (otherStrict : other ∈ Comparator.strict) (different : sign ≠ other) {row : Row}
    (holds : Condition.holds ⟨field, sign, literal⟩ row = true) :
    Condition.holds ⟨field, other, literal⟩ row = false := by
  rw [Bool.eq_false_iff]
  intro otherHolds
  exact different (Comparator.eq_of_accepts isStrict otherStrict holds otherHolds)

theorem merge_sources_comparing {sign other : Comparator} (isStrict : sign ∈ Comparator.strict)
    (otherStrict : other ∈ Comparator.strict) (different : sign ≠ other) :
    mergeSources ((comparing fields field literal sign).sources rows)
        ((comparing fields field literal other).sources rows) =
      rows.zipIdx.filter fun source =>
        Condition.holds ⟨field, sign, literal⟩ source.1 ||
          Condition.holds ⟨field, other, literal⟩ source.1 := by
  apply merge_sources_filter (ascending_zipIdx rows)
  intro source holds
  exact holds_eq_false_of_holds isStrict otherStrict different holds

theorem sources_comparing (sign : Comparator) :
    (comparing fields field literal sign).sources rows =
      rows.zipIdx.filter fun source => Condition.holds ⟨field, sign, literal⟩ source.1 := rfl

theorem holds_or_iff_is_comparable (someNumber : literal ≠ .number .nan) (row : Row) :
    (Condition.holds ⟨field, .less, literal⟩ row || Condition.holds ⟨field, .equal, literal⟩ row ||
        Condition.holds ⟨field, .greater, literal⟩ row) =
      decide ((row.get field).IsComparable literal) := by
  rw [Bool.eq_iff_iff, decide_eq_true_iff, ← exists_compare_to?_iff someNumber]
  simp only [Condition.holds]
  cases (row.get field).compareTo? literal with
  | none => simp [Comparator.accepts]
  | some ordering => cases ordering <;> simp [Comparator.accepts]

theorem partitions_rows (someNumber : literal ≠ .number .nan) :
    PartitionsRows rows field literal fun sign =>
      (comparing fields field literal sign).sources rows where
  exactlyOne := by
    intro row comparable
    obtain ⟨ordering, compared⟩ := (exists_compare_to?_iff someNumber _).2 comparable
    simp only [Condition.holds, compared]
    exact Comparator.exists_unique_accepts ordering
  otherwise := by
    intro row incomparable sign
    have unordered : (row.get field).compareTo? literal = none := by
      rw [← exists_compare_to?_iff someNumber] at incomparable
      exact Option.eq_none_iff_forall_ne_some.2 fun ordering found => incomparable ⟨ordering, found⟩
    rw [Condition.holds, unordered, Comparator.accepts_none]
  greaterEqual := by
    rw [merge_sources_comparing (by decide) (by decide) (by decide), sources_comparing]
    apply List.filter_congr
    intro source _
    exact Comparator.accepts_greater_equal _
  lessEqual := by
    rw [merge_sources_comparing (by decide) (by decide) (by decide), sources_comparing]
    apply List.filter_congr
    intro source _
    exact Comparator.accepts_less_equal _
  disjoint := by
    have distinct : Comparator.strict.Nodup := by decide
    apply distinct.imp_of_mem
    intro sign other isStrict otherStrict different source kept otherKept
    have holds := (Query.mem_sources.1 kept).2
    have otherHolds := (Query.mem_sources.1 otherKept).2
    exact different (Comparator.eq_of_accepts isStrict otherStrict holds otherHolds)
  merged := by
    rw [merge_sources_comparing (by decide) (by decide) (by decide), sources_comparing,
      merge_sources_filter (ascending_zipIdx rows)]
    · apply List.filter_congr
      intro source _
      exact holds_or_iff_is_comparable someNumber source.1
    · intro source holds
      rcases Bool.or_eq_true_iff.1 holds with lessHolds | equalHolds
      · exact holds_eq_false_of_holds (by decide) (by decide) (by decide) lessHolds
      · exact holds_eq_false_of_holds (by decide) (by decide) (by decide) equalHolds

/-- Beside a literal that is not NaN the strict signs divide the comparable rows, and no other
row is kept by any sign. What they select, merged, is the selection of the comparable rows, each
once. -/
theorem comparators_partition_rows (rows : List Row) (fields : Fields) (field : String)
    {literal : Literal} (someNumber : literal ≠ .number .nan) :
    let kept sign := (comparing fields field literal sign).sources rows
    PartitionsRows rows field literal kept ∧
      (∀ sign, (comparing fields field literal sign).execute rows =
        (kept sign).map fun source => fields.select source.1) ∧
      (mergeSources (mergeSources (kept .less) (kept .equal)) (kept .greater)).map
          (fun source => fields.select source.1) =
        (rows.filter fun row => (row.get field).IsComparable literal).map fields.select := by
  intro kept
  have partitions : PartitionsRows rows field literal kept := partitions_rows someNumber
  refine ⟨partitions, ?_, ?_⟩
  · intro sign
    exact Query.execute_eq_map_sources _ rows
  · rw [partitions.merged, ← map_fst_filter_zipIdx, List.map_map]
    rfl

/-- Beside zero: a negative zero is equal to it and the infinities lie on both sides. A field that
is missing or absent, a string of the same text and NaN stand nowhere. -/
theorem comparators_partition_rows_zero :
    let zero := Literal.number (.finite false .zero)
    let cell value := Row.empty.insert "a" value
    let rows := [cell (.number (.infinite true)), Row.empty, cell .absent,
      cell (.number (.finite true .zero)), cell (.string "0"), cell (.number .nan),
      cell (.number (.infinite false))]
    let kept sign := (comparing .wildcard "a" zero sign).sources rows
    zero ≠ .number .nan ∧ (kept .equal).map Prod.snd = [3] ∧
      (mergeSources (mergeSources (kept .less) (kept .equal)) (kept .greater)).map Prod.snd =
        [0, 3, 6] := by
  intro zero cell rows kept
  have someNumber : zero ≠ .number .nan := by decide
  have partitions : PartitionsRows rows "a" zero kept :=
    (comparators_partition_rows rows .wildcard "a" someNumber).1
  refine ⟨someNumber, by decide +kernel, ?_⟩
  rw [partitions.merged]
  decide +kernel

end Partition

end TableQuery
