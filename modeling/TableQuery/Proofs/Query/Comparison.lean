import TableQuery.Proofs.Text.ByteOrder
import TableQuery.Query.Evaluation

/-!
What a condition says about a cell. Numbers are compared by their rank and strings by their UTF-8
bytes, and the sign is read as the relation that it writes; cells of another kind, absent cells and
NaN satisfy nothing. The order of bytes is the order of code points, so a condition on a string can
be read without its encoding.
-/

namespace TableQuery

def Comparator.Relates {Place : Type} [LT Place] (left right : Place) : Comparator → Prop
  | equal => left = right
  | greater => right < left
  | greaterEqual => right < left ∨ left = right
  | less => left < right
  | lessEqual => left < right ∨ left = right

def Value.Satisfies (sign : Comparator) : Value → Literal → Prop
  | .number value, .number literal =>
      ∃ left right, value.rank? = some left ∧ literal.rank? = some right ∧ sign.Relates left right
  | .string value, .string literal =>
      sign.Relates (Utf8.encode value.toList) (Utf8.encode literal.toList)
  | _, _ => False

/-- What an ordering says about two places. -/
structure TellsOrder {Place : Type} [LT Place] (ordering : Ordering) (left right : Place) :
    Prop where
  less : ordering = .lt ↔ left < right
  same : ordering = .eq ↔ left = right
  greater : ordering = .gt ↔ right < left

/-- A sign accepts an ordering when the relation that it writes is among the ones the ordering
tells. All comparisons, of numbers and of strings, go through this one lemma. -/
theorem TellsOrder.accepts_iff {Place : Type} [LT Place] {left right : Place} {ordering : Ordering}
    (tells : TellsOrder ordering left right) (sign : Comparator) :
    sign.accepts (some ordering) = true ↔ sign.Relates left right := by
  cases sign with
  | equal => rw [Comparator.Relates, ← tells.same, Comparator.accepts, beq_iff_eq]
  | greater => rw [Comparator.Relates, ← tells.greater, Comparator.accepts, beq_iff_eq]
  | less => rw [Comparator.Relates, ← tells.less, Comparator.accepts, beq_iff_eq]
  | greaterEqual =>
      rw [Comparator.Relates, ← tells.greater, ← tells.same, Comparator.accepts]
      cases ordering <;> decide
  | lessEqual =>
      rw [Comparator.Relates, ← tells.less, ← tells.same, Comparator.accepts]
      cases ordering <;> decide

theorem compare_bytes_eq_lt {left right : List UInt8} :
    compare left right = .lt ↔ left < right := by
  induction left generalizing right with
  | nil => cases right <;> simp
  | cons byte rest induction =>
      cases right with
      | nil => simp
      | cons other others =>
          have first : compare byte other = .lt ↔ byte < other := Std.compare_eq_lt
          have equal : compare byte other = .eq ↔ byte = other := Std.compare_eq_iff_eq
          rw [List.compare_cons_cons, List.cons_lt_cons_iff, Ordering.then_eq_lt, first, equal,
            induction]

theorem tells_order_compare_bytes (left right : List UInt8) :
    TellsOrder (compare left right) left right where
  less := compare_bytes_eq_lt
  same := Std.compare_eq_iff_eq
  greater := by rw [Std.OrientedCmp.gt_iff_lt, compare_bytes_eq_lt]

theorem tells_order_compare_ranks (left right : Int) :
    TellsOrder (compare left right) left right where
  less := Int.compare_eq_lt
  same := Std.compare_eq_iff_eq
  greater := Int.compare_eq_gt

namespace Binary64

theorem exists_rank? {double : Binary64} (someNumber : double ≠ .nan) :
    ∃ place, double.rank? = some place := by
  cases double with
  | nan => exact absurd rfl someNumber
  | infinite negative => exact ⟨_, rfl⟩
  | finite negative magnitude => exact ⟨_, rfl⟩

theorem compare?_eq_map {right : Binary64} {place : Int} (ranked : right.rank? = some place)
    (left : Binary64) : left.compare? right = left.rank?.map (compare · place) := by
  rw [compare?, ranked]
  cases left.rank? <;> rfl

end Binary64

theorem accepts_compare?_iff (sign : Comparator) (left right : Binary64) :
    sign.accepts (left.compare? right) = true ↔
      ∃ place other, left.rank? = some place ∧ right.rank? = some other ∧
        sign.Relates place other := by
  unfold Binary64.compare?
  cases left.rank? with
  | none => simp
  | some place =>
      cases right.rank? with
      | none => simp
      | some other => simpa using (tells_order_compare_ranks place other).accepts_iff sign

theorem accepts_compare_to?_iff (sign : Comparator) (value : Value) (literal : Literal) :
    sign.accepts (value.compareTo? literal) = true ↔ value.Satisfies sign literal := by
  have never : sign.accepts none = true ↔ False := by simp
  cases value with
  | absent => cases literal <;> exact never
  | number value =>
      cases literal with
      | number literal => exact accepts_compare?_iff sign value literal
      | string literal => exact never
  | string value =>
      cases literal with
      | number literal => exact never
      | string literal => exact (tells_order_compare_bytes _ _).accepts_iff sign

instance (sign : Comparator) (value : Value) (literal : Literal) :
    Decidable (value.Satisfies sign literal) :=
  decidable_of_iff _ (accepts_compare_to?_iff sign value literal)

theorem Condition.holds_iff (condition : Condition Literal) (row : Row) :
    condition.holds row = true ↔
      (row.get condition.field).Satisfies condition.comparator condition.constant :=
  accepts_compare_to?_iff _ _ _

/-- What a query asks of a row, given as its cells. A query without a filter asks nothing. -/
def Query.Wants (query : Query Literal) (cell : String → Value) : Prop :=
  ∀ condition ∈ query.filter,
    (cell condition.field).Satisfies condition.comparator condition.constant

theorem Query.keeps_iff (query : Query Literal) (row : Row) :
    query.keeps row = true ↔ query.Wants row.get := by
  rcases query with ⟨fields, filter⟩
  cases filter with
  | none => simp [keeps, Wants]
  | some condition => simp [keeps, Wants, Condition.holds_iff]

instance (query : Query Literal) (cell : String → Value) : Decidable (query.Wants cell) :=
  match filter : query.filter with
  | none => .isTrue (by simp [Query.Wants, filter])
  | some condition =>
      decidable_of_iff
        ((cell condition.field).Satisfies condition.comparator condition.constant)
        (by simp [Query.Wants, filter])

theorem tells_order_compare_text (left right : String) :
    TellsOrder (compareText left right) (codePoints left.toList) (codePoints right.toList) := by
  have bytes := tells_order_compare_bytes (Utf8.encode left.toList) (Utf8.encode right.toList)
  constructor
  · exact bytes.less.trans Utf8.encode_lt_encode_iff
  · exact bytes.same.trans Utf8.encode_eq_encode_iff
  · exact bytes.greater.trans Utf8.encode_lt_encode_iff

/-- Strings are ordered by their first code points that differ, and a string comes before its
extensions. A condition on a string says this of the cell and the literal. -/
theorem strings_order_by_code_points (left right : String) :
    TellsOrder (compareText left right) (codePoints left.toList) (codePoints right.toList) ∧
      ∀ row field sign, Row.get row field = .string left →
        (Condition.holds ⟨field, sign, .string right⟩ row = true ↔
          sign.Relates (codePoints left.toList) (codePoints right.toList)) := by
  have tells := tells_order_compare_text left right
  refine ⟨tells, ?_⟩
  intro row field sign found
  rw [Condition.holds, found]
  exact tells.accepts_iff sign

/-- A character of four bytes comes after one of three bytes, which the order of surrogates would
turn round, and a proper prefix comes first. -/
theorem strings_order_by_code_points_four_bytes :
    let row := Row.empty.insert "a" (.string "\uffffz")
    row.get "a" = .string "\uffffz" ∧
      Condition.holds ⟨"a", .less, .string "😀"⟩ row = true ∧
      Condition.holds ⟨"a", .greater, .string "\uffff"⟩ row = true := by
  intro row
  have found : row.get "a" = .string "\uffffz" := Row.get_insert_self ..
  have first : codePoints "\uffffz".toList < codePoints "😀".toList := by decide
  have longer : codePoints "\uffff".toList < codePoints "\uffffz".toList := by decide
  refine ⟨found, ?_, ?_⟩
  · exact ((strings_order_by_code_points "\uffffz" "😀").2 row "a" .less found).2 first
  · exact ((strings_order_by_code_points "\uffffz" "\uffff").2 row "a" .greater found).2 longer

end TableQuery
