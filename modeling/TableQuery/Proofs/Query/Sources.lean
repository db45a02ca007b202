import Mathlib.Data.List.Basic
import TableQuery.Query.Evaluation

/-!
Where the rows of a result come from. A result lists what is selected of some input rows, and each
of them is known by its place in the input, so equal rows at two places are told apart. Results can
then be merged in the order of the input.
-/

namespace TableQuery

abbrev Source := Row × Nat

theorem map_fst_filter_zipIdx (rows : List Row) (test : Row → Bool) :
    (rows.zipIdx.filter fun source => test source.1).map Prod.fst = rows.filter test := by
  have kept := List.filter_map (f := Prod.fst) (p := test) (l := rows.zipIdx)
  rw [List.zipIdx_map_fst] at kept
  exact kept.symm

namespace Query

def sources (query : Query Literal) (rows : List Row) : List Source :=
  rows.zipIdx.filter fun source => query.keeps source.1

theorem execute_eq_map_sources (query : Query Literal) (rows : List Row) :
    query.execute rows = (query.sources rows).map fun source => query.fields.select source.1 := by
  rw [execute, ← map_fst_filter_zipIdx, List.map_map]
  rfl

theorem mem_sources {query : Query Literal} {rows : List Row} {source : Source} :
    source ∈ query.sources rows ↔ source ∈ rows.zipIdx ∧ query.keeps source.1 = true :=
  List.mem_filter

/-- One query keeps only input rows that another keeps, and its result leaves out the others. A row
counts with its place in the input, so that equal rows are told apart. -/
structure KeepsWithin (rows : List Row) (tight loose : Query Literal) : Prop where
  sources : (tight.sources rows).Sublist (loose.sources rows)
  result : (tight.execute rows).Sublist (loose.execute rows)

theorem keeps_within_of_keeps {tight loose : Query Literal}
    (sameFields : tight.fields = loose.fields)
    (keeps : ∀ row, tight.keeps row = true → loose.keeps row = true) (rows : List Row) :
    KeepsWithin rows tight loose := by
  have sources : (tight.sources rows).Sublist (loose.sources rows) := by
    apply List.monotone_filter_right
    intro source
    exact keeps source.1
  refine ⟨sources, ?_⟩
  rw [execute_eq_map_sources, execute_eq_map_sources, sameFields]
  exact sources.map _

end Query

/-- Two lists of sources as one, in the order of the input. -/
def mergeSources (left right : List Source) : List Source :=
  left.merge right fun source other => source.2 ≤ other.2

def Ascending (sources : List Source) : Prop :=
  sources.Pairwise fun source other => source.2 < other.2

theorem ascending_zipIdx (rows : List Row) : Ascending rows.zipIdx := by
  have places : (rows.zipIdx.map Prod.snd).Pairwise (· < ·) := by
    rw [List.zipIdx_map_snd]
    exact List.pairwise_lt_range'
  exact List.pairwise_map.1 places

section Merge

variable {source : Source} {left right : List Source}

theorem merge_sources_cons_left (before : ∀ other ∈ right, source.2 < other.2) :
    mergeSources (source :: left) right = source :: mergeSources left right := by
  cases right with
  | nil => rw [mergeSources, mergeSources, List.merge_right, List.merge_right]
  | cons other rest =>
      have first : source.2 ≤ other.2 := Nat.le_of_lt (before other List.mem_cons_self)
      rw [mergeSources, List.cons_merge_cons_pos _ _ _ (decide_eq_true first)]
      rfl

theorem merge_sources_cons_right (before : ∀ other ∈ left, source.2 < other.2) :
    mergeSources left (source :: right) = source :: mergeSources left right := by
  cases left with
  | nil => rw [mergeSources, mergeSources, List.nil_merge, List.nil_merge]
  | cons other rest =>
      have later : ¬other.2 ≤ source.2 := Nat.not_le_of_gt (before other List.mem_cons_self)
      rw [mergeSources, List.cons_merge_cons_neg _ _ _ (by simpa using later)]
      rfl

theorem merge_sources_filter {sources : List Source} (ascending : Ascending sources)
    {test other : Source → Bool} (apart : ∀ source, test source = true → other source = false) :
    mergeSources (sources.filter test) (sources.filter other) =
      sources.filter fun source => test source || other source := by
  induction sources with
  | nil => rw [List.filter_nil, List.filter_nil, List.filter_nil, mergeSources, List.nil_merge]
  | cons source rest induction =>
      obtain ⟨before, ascendingRest⟩ := List.pairwise_cons.1 ascending
      have merged := induction ascendingRest
      have beforeKept (test : Source → Bool) : ∀ later ∈ rest.filter test, source.2 < later.2 := by
        intro later member
        exact before later (List.mem_filter.1 member).1
      cases passes : test source with
      | true =>
          rw [List.filter_cons_of_pos passes,
            List.filter_cons_of_neg (by simp [apart source passes]),
            List.filter_cons_of_pos (by simp [passes]), merge_sources_cons_left (beforeKept other),
            merged]
      | false =>
          cases passesOther : other source with
          | true =>
              rw [List.filter_cons_of_neg (by simp [passes]), List.filter_cons_of_pos passesOther,
                List.filter_cons_of_pos (by simp [passesOther]),
                merge_sources_cons_right (beforeKept test), merged]
          | false =>
              rw [List.filter_cons_of_neg (by simp [passes]),
                List.filter_cons_of_neg (by simp [passesOther]),
                List.filter_cons_of_neg (by simp [passes, passesOther]), merged]

end Merge

end TableQuery
