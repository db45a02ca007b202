import TableQuery.Proofs.Number.WholeNumber
import TableQuery.Proofs.Report.JsonNumber

/-!
Whole numbers in JSON and in the table. JSON writes a whole number of 64 bits with all its digits,
the table writes the shortest decimal that reads back, with zeros at the end. So both texts are the
same exactly where the shortest decimal is the number itself, and this holds below `2 ^ 54 + 8`: the
decimals with fewer digits that could stand for another number all end in a zero, and an even number
up to `2 ^ 54` is a double.
-/

namespace TableQuery

namespace Decimal

theorem toDigits_mul_pow {number : Nat} (positive : 0 < number) (places : Nat) :
    Nat.toDigits 10 (number * 10 ^ places) =
      Nat.toDigits 10 number ++ List.replicate places '0' := by
  induction places with
  | zero => simp
  | succ places induction =>
      have front : 0 < number * 10 ^ places := Nat.mul_pos positive (Nat.pow_pos (by omega))
      have last := @Nat.toDigits_append_toDigits 10 _ 0 (by omega) front (by omega : 0 < 10)
      have product : number * 10 ^ (places + 1) = 10 * (number * 10 ^ places) + 0 := by ring
      rw [product, ← last, induction, List.append_assoc]
      simp [List.replicate_succ']

theorem value_of_nonneg {decimal : Decimal} (noPlaces : 0 ≤ decimal.exponent) :
    decimal.value = (decimal.digits * 10 ^ decimal.exponent.toNat : Nat) := by
  have noTenths : (-decimal.exponent).toNat = 0 := by omega
  have value := decimal.value_mul_pow
  rw [noTenths, pow_zero, mul_one] at value
  rw [value]
  push_cast
  rfl

end Decimal

namespace Magnitude

variable {magnitude : Magnitude} {tie : TieRule}

theorem exponent_of_multiple_at {exponent : Int} {decimal : Decimal}
    (found : multipleAt tie magnitude exponent = some decimal) : decimal.exponent = exponent := by
  unfold multipleAt at found
  dsimp only at found
  split at found
  · cases found
    rfl
  · split at found
    · cases found
      rfl
    · cases found

theorem multiple_at_zero (tie : TieRule) (whole : magnitude.IsWhole) :
    multipleAt tie magnitude 0 = some ⟨magnitude.wholePart, 0⟩ := by
  have noRest : magnitude.quanta % quantaPerOne = 0 := Nat.mod_eq_zero_of_dvd whole
  have readsBack : magnitude.ReadsBack ⟨magnitude.quanta / quantaPerOne, 0⟩ :=
    reads_back_whole_part whole
  have positive := quanta_per_one_pos
  simp [multipleAt, noRest, readsBack, positive, wholePart]

/-- The search for a whole magnitude ends with a multiple of a power of ten, or at the power zero
with the magnitude itself. -/
theorem shortest_from_of_is_whole (whole : magnitude.IsWhole) {depth : Nat}
    (start : 1074 ≤ depth) :
    0 < (shortestFrom tie magnitude depth).exponent ∨
      shortestFrom tie magnitude depth = ⟨magnitude.wholePart, 0⟩ := by
  induction depth with
  | zero => omega
  | succ depth induction =>
      unfold shortestFrom
      by_cases last : ((depth + 1 : Nat) : Int) - 1074 = 0
      · right
        rw [last, multiple_at_zero tie whole]
      · split
        · rename_i decimal found
          left
          rw [exponent_of_multiple_at found]
          omega
        · exact induction (by omega)

/-- The table shows a whole magnitude as a whole number: itself, or a multiple of ten that is
rounded to it. -/
theorem exists_shown (tie : TieRule) (whole : magnitude.IsWhole) :
    ∃ shown : Nat, (magnitude.shortest tie).positional = Nat.toDigits 10 shown ∧
      (magnitude.shortest tie).value = shown ∧
      (shown = magnitude.wholePart ∨
        10 ∣ shown ∧ nearestQuanta (shown * quantaPerOne) 1 = magnitude.quanta) := by
  have readsBack := reads_back_shortest tie magnitude
  have itself : Decimal.positional ⟨magnitude.wholePart, 0⟩ = Nat.toDigits 10 magnitude.wholePart ∧
      Decimal.value ⟨magnitude.wholePart, 0⟩ = magnitude.wholePart := by
    constructor
    · simp [Decimal.positional]
    · simp [Decimal.value]
  by_cases isZero : magnitude.quanta = 0
  · have zero : magnitude.shortest tie = ⟨magnitude.wholePart, 0⟩ := by
      rw [shortest, if_pos isZero, wholePart, isZero, Nat.zero_div]
    rw [zero]
    exact ⟨_, itself.1, itself.2, .inl rfl⟩
  · obtain ⟨nonzero, quanta⟩ := quanta_of_reads_back readsBack isZero
    have ended := @shortest_from_of_is_whole _ tie whole _
      (Nat.le_add_left 1074 (Nat.toDigits 10 magnitude.wholePart).length)
    have search : magnitude.shortest tie = shortestFrom tie magnitude _ := if_neg isZero
    rw [← search] at ended
    generalize magnitude.shortest tie = decimal at nonzero quanta ended ⊢
    rcases ended with positive | rfl
    · have noPlaces : 0 ≤ decimal.exponent := by omega
      have noTenths : (-decimal.exponent).toNat = 0 := by omega
      refine ⟨decimal.digits * 10 ^ decimal.exponent.toNat, ?_, ?_, .inr ⟨?_, ?_⟩⟩
      · rw [Decimal.positional_of_nonneg noPlaces]
        exact (Decimal.toDigits_mul_pow (Nat.pos_of_ne_zero nonzero) _).symm
      · exact Decimal.value_of_nonneg noPlaces
      · exact Nat.dvd_mul_left_of_dvd (dvd_pow_self 10 (by omega)) _
      · rw [noTenths] at quanta
        exact quanta.symm
    · exact ⟨_, itself.1, itself.2, .inl rfl⟩

theorem value_of_is_whole (whole : magnitude.IsWhole) : magnitude.value = magnitude.wholePart := by
  have nonzero := cast_quanta_per_one_pos.ne'
  rw [value, ← whole_part_mul whole, Nat.cast_mul, mul_div_cancel_right₀ _ nonzero]

end Magnitude

/-- Up to `2 ^ 54` even numbers are doubles, and the next multiple of ten is a tie that goes up.
Hence shortening the digits first goes wrong a little beyond that number. -/
theorem eq_of_nearest_quanta {shown number : Nat} (tens : 10 ∣ shown)
    (rounded : nearestQuanta (shown * quantaPerOne) 1 = number * quantaPerOne)
    (small : number < 2 ^ 54 + 8) : shown = number := by
  by_cases short : shown ≤ Nat.pow 2 53
  · rw [nearest_quanta_whole short] at rounded
    exact Nat.eq_of_mul_eq_mul_right quanta_per_one_pos rounded
  · rw [nearest_quanta_mul_quanta_per_one (Nat.le_of_not_le short)] at rounded
    have nearest := Nat.eq_of_mul_eq_mul_right quanta_per_one_pos rounded
    obtain ⟨count, rfl⟩ := tens
    by_cases exact : 10 * count ≤ 2 ^ 54
    · have onGrid : OnGrid (5 * count * Nat.pow 2 1) := by
        apply spacing_dvd_mul_pow
        have power : Nat.pow 2 53 = 2 ^ 53 := rfl
        omega
      have even : 5 * count * Nat.pow 2 1 = 10 * count := by
        have two : Nat.pow 2 1 = 2 := rfl
        rw [two]
        omega
      rw [even] at onGrid
      have kept := nearest_quanta_mul onGrid Nat.one_pos
      rw [Nat.mul_one] at kept
      rw [← nearest, kept]
    · -- Doubles are four apart here, and `2 ^ 54 + 6` lies midway between two of them.
      have tie : nearestQuanta (2 ^ 54 + 6) 1 = 2 ^ 54 + 8 := by decide +kernel
      have onGrid : OnGrid (2 ^ 54 + 8) := by
        rw [OnGrid]
        decide +kernel
      have above : 2 ^ 54 + 8 ≤ nearestQuanta (10 * count) 1 := by
        by_cases first : 10 * count = 2 ^ 54 + 6
        · rw [first, tie]
        · apply le_nearest_quanta onGrid
          omega
      omega

namespace Json

open Binary64

section Texts

variable {negative : Bool} {magnitude : Magnitude}

theorem with_sign_inj {text other : List Char} :
    withSign negative text = withSign negative other ↔ text = other := by
  cases negative with
  | false => exact Iff.rfl
  | true => exact List.cons_inj_right '-'

theorem toDigits_inj {number other : Nat} :
    Nat.toDigits 10 number = Nat.toDigits 10 other ↔ number = other := by
  constructor
  · intro same
    have numbers := congrArg (Nat.ofDigitChars 10 · 0) same
    simpa only [Nat.ofDigitChars_ten_toDigits] using numbers
  · rintro rfl
    rfl

/-- JSON writes all digits of a whole number, and keeps its sign unless it is zero. -/
theorem value_of_fits (isWhole : magnitude.IsWhole)
    (fits : fitsInteger negative magnitude.wholePart = true)
    (unsignedZero : Binary64.finite negative magnitude ≠ .finite true .zero) :
    value (.number (.finite negative magnitude)) =
      withSign negative (Nat.toDigits 10 magnitude.wholePart) := by
  have sameSign : (negative && magnitude.wholePart != 0) = negative := by
    cases negative with
    | false => rfl
    | true =>
        have nonzero : magnitude.wholePart ≠ 0 := by
          intro isZero
          have quanta := Magnitude.whole_part_mul isWhole
          rw [isZero, Nat.zero_mul] at quanta
          exact unsignedZero (congrArg _ (Magnitude.eq_zero_of_quanta quanta.symm))
        simp [nonzero]
  rw [value, number, if_pos ⟨isWhole, fits⟩, integer, sameSign]

end Texts

/-- A whole number of 64 bits, other than the negative zero, has one text in JSON and in the table
exactly where its shortest decimal is the number itself, and so has every one below `2 ^ 54 + 8`. -/
theorem value_eq_text_iff {negative : Bool} {magnitude : Magnitude} {whole : Int}
    (integer64 : IsInteger64 (.finite negative magnitude) whole)
    (unsignedZero : Binary64.finite negative magnitude ≠ .finite true .zero) :
    (value (.number (.finite negative magnitude)) =
        (Value.number (.finite negative magnitude)).text.toList ↔
      (magnitude.shortest .awayFromZero).value = magnitude.value) ∧
    (whole.natAbs < 2 ^ 54 + 8 →
      value (.number (.finite negative magnitude)) =
        (Value.number (.finite negative magnitude)).text.toList) := by
  obtain ⟨⟨isWhole, fits⟩, rfl⟩ := is_integer64_iff.1 integer64
  obtain ⟨shown, text, exactly, rounded⟩ := Magnitude.exists_shown .awayFromZero isWhole
  have table : (Value.number (.finite negative magnitude)).text.toList =
      withSign negative (Nat.toDigits 10 shown) := by
    rw [Value.text, String.toList_ofList, plain, text]
  have same : value (.number (.finite negative magnitude)) =
      (Value.number (.finite negative magnitude)).text.toList ↔ shown = magnitude.wholePart := by
    rw [value_of_fits isWhole fits unsignedZero, table, with_sign_inj, toDigits_inj]
    exact eq_comm
  rw [same]
  constructor
  · rw [exactly, Magnitude.value_of_is_whole isWhole, Nat.cast_inj]
  · intro small
    rw [natAbs_signed] at small
    rcases rounded with itself | ⟨tens, nearest⟩
    · exact itself
    · rw [← Magnitude.whole_part_mul isWhole] at nearest
      exact eq_of_nearest_quanta tens nearest small

/-- All sixteen digits of `2 ^ 53 + 2` are shown, and so is the minus sign. -/
theorem value_eq_text_longest :
    ∃ double, Value.coerce "-9007199254740994" = .number double ∧
      value (.number double) = (Value.number double).text.toList := by
  have bounded : 9007199254740994 * quantaPerOne < quantaLimit := by decide +kernel
  have onGrid : spacing (9007199254740994 * quantaPerOne) ∣ 9007199254740994 * quantaPerOne := by
    decide +kernel
  have facts : Value.coerce "-9007199254740994" = .number (.finite true ⟨_, onGrid, bounded⟩) ∧
      (Binary64.finite true ⟨_, onGrid, bounded⟩).rank? =
        some ((-9007199254740994 : Int) * quantaPerOne) ∧
      Binary64.finite true ⟨_, onGrid, bounded⟩ ≠ .finite true .zero := by
    decide +kernel +revert
  obtain ⟨coerced, rank, unsignedZero⟩ := facts
  have integer64 : IsInteger64 (.finite true ⟨_, onGrid, bounded⟩) (-9007199254740994) :=
    ⟨rank, by decide, by decide⟩
  exact ⟨_, coerced, (value_eq_text_iff integer64 unsignedZero).2 (by decide)⟩

/-- Seventeen digits, of which the table shows sixteen that read back, and JSON all. -/
theorem value_ne_text :
    ∃ double, Value.coerce "18014398509481992" = .number double ∧
      IsInteger64 double (2 ^ 54 + 8) ∧ double ≠ .finite true .zero ∧
      value (.number double) = "18014398509481992".toList ∧
      (Value.number double).text = "18014398509481990" := by
  refine ⟨Decimal.toBinary64 false ⟨18014398509481992, 0⟩, ?_, ⟨?_, ?_, ?_⟩, ?_, ?_, ?_⟩ <;>
    decide +kernel

end Json

end TableQuery
