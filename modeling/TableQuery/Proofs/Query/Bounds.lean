import TableQuery.Proofs.Query.Partition

/-!
Conditions with a bound, under a change of the bound. Two literals that compare lie in one order, in
which every cell either has its place or compares with neither of them, so a bound that is moved
inwards keeps rows that it kept before and adds none.
-/

namespace TableQuery

namespace Literal

/-- One literal is at most another, by the comparison that conditions use. So both are strings or
both are numbers, and neither is NaN. -/
def AtMost (lower upper : Literal) : Prop :=
  Comparator.lessEqual.accepts (lower.asValue.compareTo? upper) = true

def Below (lower upper : Literal) : Prop :=
  Comparator.less.accepts (lower.asValue.compareTo? upper) = true

instance (lower upper : Literal) : Decidable (lower.AtMost upper) :=
  inferInstanceAs (Decidable (_ = _))

instance (lower upper : Literal) : Decidable (lower.Below upper) :=
  inferInstanceAs (Decidable (_ = _))

end Literal

/-- An order in which two literals have places, and every cell that compares with them. Numbers and
strings have orders of their own, and the argument about bounds is the same in both. -/
structure SharedOrder (lower upper : Literal) where
  Place : Type
  [order : Ord Place]
  [transitive : Std.TransOrd Place]
  low : Place
  high : Place
  place? : Value → Option Place
  place_lower : place? lower.asValue = some low
  compareTo_lower : ∀ value, value.compareTo? lower = (place? value).map (compare · low)
  compareTo_upper : ∀ value, value.compareTo? upper = (place? value).map (compare · high)

attribute [instance] SharedOrder.order SharedOrder.transitive

namespace SharedOrder

def ofNumbers {lower upper : Binary64} {low high : Int} (isLow : lower.rank? = some low)
    (isHigh : upper.rank? = some high) : SharedOrder (.number lower) (.number upper) where
  Place := Int
  low := low
  high := high
  place?
    | .number value => value.rank?
    | _ => none
  place_lower := isLow
  compareTo_lower := by
    rintro (value | text | _)
    · exact Binary64.compare?_eq_map isLow value
    · rfl
    · rfl
  compareTo_upper := by
    rintro (value | text | _)
    · exact Binary64.compare?_eq_map isHigh value
    · rfl
    · rfl

def ofStrings (lower upper : String) : SharedOrder (.string lower) (.string upper) where
  Place := List UInt8
  low := Utf8.encode lower.toList
  high := Utf8.encode upper.toList
  place?
    | .string value => some (Utf8.encode value.toList)
    | _ => none
  place_lower := rfl
  compareTo_lower := by rintro (value | text | _) <;> rfl
  compareTo_upper := by rintro (value | text | _) <;> rfl

theorem compare_to?_eq {lower upper : Literal} (shared : SharedOrder lower upper) :
    lower.asValue.compareTo? upper = some (compare shared.low shared.high) := by
  rw [shared.compareTo_upper, shared.place_lower, Option.map_some]

end SharedOrder

theorem exists_rank?_of_compare? {left right : Binary64} {ordering : Ordering}
    (compared : left.compare? right = some ordering) :
    ∃ place other, left.rank? = some place ∧ right.rank? = some other := by
  obtain ⟨place, ranked, compared⟩ := Option.bind_eq_some_iff.1 compared
  obtain ⟨other, otherRanked, -⟩ := Option.bind_eq_some_iff.1 compared
  exact ⟨place, other, ranked, otherRanked⟩

theorem nonempty_shared_order {lower upper : Literal} {ordering : Ordering}
    (compared : lower.asValue.compareTo? upper = some ordering) :
    Nonempty (SharedOrder lower upper) := by
  cases lower with
  | number lower =>
      cases upper with
      | number upper =>
          obtain ⟨low, high, isLow, isHigh⟩ := exists_rank?_of_compare? compared
          exact ⟨.ofNumbers isLow isHigh⟩
      | string upper => cases compared
  | string lower =>
      cases upper with
      | number upper => cases compared
      | string upper => exact ⟨.ofStrings lower upper⟩

namespace Comparator

theorem exists_of_accepts {sign : Comparator} {outcome : Option Ordering}
    (holds : sign.accepts outcome = true) : ∃ ordering, outcome = some ordering := by
  cases outcome with
  | none =>
      rw [accepts_none] at holds
      cases holds
  | some ordering => exact ⟨ordering, rfl⟩

section Bounds

variable {ordering : Ordering}

theorem accepts_greater_iff : greater.accepts (some ordering) = true ↔ ordering = .gt := by
  rw [accepts, beq_iff_eq]

theorem accepts_greater_equal_iff :
    greaterEqual.accepts (some ordering) = true ↔ ordering.isGE = true := by
  cases ordering <;> decide

theorem accepts_less_iff : less.accepts (some ordering) = true ↔ ordering = .lt := by
  rw [accepts, beq_iff_eq]

theorem accepts_less_equal_iff :
    lessEqual.accepts (some ordering) = true ↔ ordering.isLE = true := by
  cases ordering <;> decide

end Bounds

def fromBelow : List Comparator := [greater, greaterEqual]

def fromAbove : List Comparator := [less, lessEqual]

section Place

variable {Place : Type} [Ord Place] [Std.TransOrd Place] {low high place : Place}
  {sign : Comparator}

theorem accepts_low (ordered : (compare low high).isLE = true) (bounds : sign ∈ fromBelow)
    (holds : sign.accepts (some (compare place high)) = true) :
    sign.accepts (some (compare place low)) = true := by
  have downwards : (compare high low).isGE = true := Std.OrientedCmp.isGE_iff_isLE.2 ordered
  cases sign with
  | greater =>
      rw [accepts_greater_iff] at holds ⊢
      exact Std.TransCmp.gt_of_gt_of_isGE holds downwards
  | greaterEqual =>
      rw [accepts_greater_equal_iff] at holds ⊢
      exact Std.TransCmp.isGE_trans holds downwards
  | equal => exact absurd bounds (by decide)
  | less => exact absurd bounds (by decide)
  | lessEqual => exact absurd bounds (by decide)

theorem accepts_high (ordered : (compare low high).isLE = true) (bounds : sign ∈ fromAbove)
    (holds : sign.accepts (some (compare place low)) = true) :
    sign.accepts (some (compare place high)) = true := by
  cases sign with
  | less =>
      rw [accepts_less_iff] at holds ⊢
      exact Std.TransCmp.lt_of_lt_of_isLE holds ordered
  | lessEqual =>
      rw [accepts_less_equal_iff] at holds ⊢
      exact Std.TransCmp.isLE_trans holds ordered
  | equal => exact absurd bounds (by decide)
  | greater => exact absurd bounds (by decide)
  | greaterEqual => exact absurd bounds (by decide)

theorem not_accepts_outside (ordered : compare low high = .lt)
    (holds : lessEqual.accepts (some (compare place low)) = true) :
    greaterEqual.accepts (some (compare place high)) = false := by
  rw [Bool.eq_false_iff, ne_eq, accepts_greater_equal_iff]
  rw [accepts_less_equal_iff] at holds
  rw [Std.TransCmp.lt_of_isLE_of_lt holds ordered]
  decide

end Place

end Comparator

namespace SharedOrder

variable {lower upper : Literal} {sign : Comparator} {value : Value}

theorem places (shared : SharedOrder lower upper) (value : Value) :
    (value.compareTo? lower = none ∧ value.compareTo? upper = none) ∨
      ∃ place, value.compareTo? lower = some (compare place shared.low) ∧
        value.compareTo? upper = some (compare place shared.high) := by
  rw [shared.compareTo_lower, shared.compareTo_upper]
  cases shared.place? value with
  | none => exact .inl ⟨rfl, rfl⟩
  | some place => exact .inr ⟨place, rfl, rfl⟩

theorem accepts_lower (shared : SharedOrder lower upper)
    (ordered : (compare shared.low shared.high).isLE = true) (bounds : sign ∈ Comparator.fromBelow)
    (holds : sign.accepts (value.compareTo? upper) = true) :
    sign.accepts (value.compareTo? lower) = true := by
  rcases shared.places value with ⟨besideLower, besideUpper⟩ | ⟨place, besideLower, besideUpper⟩
  · rw [besideUpper, Comparator.accepts_none] at holds
    cases holds
  · rw [besideUpper] at holds
    rw [besideLower]
    exact Comparator.accepts_low ordered bounds holds

theorem accepts_upper (shared : SharedOrder lower upper)
    (ordered : (compare shared.low shared.high).isLE = true) (bounds : sign ∈ Comparator.fromAbove)
    (holds : sign.accepts (value.compareTo? lower) = true) :
    sign.accepts (value.compareTo? upper) = true := by
  rcases shared.places value with ⟨besideLower, besideUpper⟩ | ⟨place, besideLower, besideUpper⟩
  · rw [besideLower, Comparator.accepts_none] at holds
    cases holds
  · rw [besideLower] at holds
    rw [besideUpper]
    exact Comparator.accepts_high ordered bounds holds

theorem not_accepts_both (shared : SharedOrder lower upper)
    (ordered : compare shared.low shared.high = .lt)
    (holds : Comparator.lessEqual.accepts (value.compareTo? lower) = true) :
    Comparator.greaterEqual.accepts (value.compareTo? upper) = false := by
  rcases shared.places value with ⟨besideLower, besideUpper⟩ | ⟨place, besideLower, besideUpper⟩
  · rw [besideUpper, Comparator.accepts_none]
  · rw [besideLower] at holds
    rw [besideUpper]
    exact Comparator.not_accepts_outside ordered holds

end SharedOrder

end TableQuery
