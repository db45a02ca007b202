import TableQuery.Proofs.Value.NumberText

/-!
What becomes of a raw cell. A cell is a number exactly when its trimmed text belongs to the grammar
of numbers, and a decimal becomes the nearest double with the sign of the text. Any other cell is
kept as a string, with the white space around it.
-/

namespace TableQuery

namespace Value

theorem coerce_eq_number_iff {raw : String} {double : Binary64} :
    coerce raw = .number double ↔ readNumber? (trim raw.toList) = some double := by
  unfold coerce
  cases readNumber? (trim raw.toList) with
  | none =>
      constructor <;> intro same <;> cases same
  | some other =>
      constructor <;> intro same <;> cases same <;> rfl

theorem exists_coerce_eq_number_iff {raw : String} :
    (∃ double, coerce raw = .number double) ↔ IsNumberText (trim raw.toList) := by
  rw [← isSome_read_number?_iff, Option.isSome_iff_exists]
  exact exists_congr fun _ => coerce_eq_number_iff

theorem coerce_eq_string_iff {raw text : String} :
    coerce raw = .string text ↔ ¬IsNumberText (trim raw.toList) ∧ text = raw := by
  rw [← isSome_read_number?_iff]
  unfold coerce
  cases readNumber? (trim raw.toList) with
  | none => simp [eq_comm]
  | some double => simp

theorem coerce_ne_nan (raw : String) : coerce raw ≠ .number .nan := by
  intro isNan
  exact read_number?_ne_nan _ (coerce_eq_number_iff.1 isNan)

theorem coerce_ne_absent (raw : String) : coerce raw ≠ .absent := by
  intro isAbsent
  unfold coerce at isAbsent
  split at isAbsent <;> cases isAbsent

theorem coerce_eq_number_iff_rounds {raw : String} {sign unsigned : List Char} {negative : Bool}
    {exact : ℚ} (isSign : SpellsSign sign negative) (isDecimal : SpellsDecimal unsigned exact)
    (spelled : trim raw.toList = sign ++ unsigned) (double : Binary64) :
    coerce raw = .number double ↔ Binary64.Rounds negative exact double := by
  obtain ⟨nearest, read, rounds⟩ := read_number?_decimal isSign isDecimal
  rw [coerce_eq_number_iff, spelled, read]
  constructor
  · intro same
    cases same
    exact rounds
  · intro again
    rw [rounds.unique again]

/-- Exactly the texts of the grammar become numbers, a decimal the nearest double with its sign.
Every other text is kept unchanged, and no text becomes NaN or an absent value. -/
theorem coerce_follows_grammar (raw : String) :
    ((∃ double, coerce raw = .number double) ↔ IsNumberText (trim raw.toList)) ∧
      (∀ sign negative unsigned exact, SpellsSign sign negative → SpellsDecimal unsigned exact →
        trim raw.toList = sign ++ unsigned →
        ∀ double, coerce raw = .number double ↔ Binary64.Rounds negative exact double) ∧
      (∀ sign negative, SpellsSign sign negative → trim raw.toList = sign ++ "Infinity".toList →
        coerce raw = .number (.infinite negative)) ∧
      (¬IsNumberText (trim raw.toList) → coerce raw = .string raw) ∧
      coerce raw ≠ .absent ∧ coerce raw ≠ .number .nan := by
  refine ⟨exists_coerce_eq_number_iff, ?_, ?_, ?_, coerce_ne_absent raw, coerce_ne_nan raw⟩
  · intro sign negative unsigned exact isSign isDecimal spelled
    exact coerce_eq_number_iff_rounds isSign isDecimal spelled
  · intro sign negative isSign spelled
    rw [coerce_eq_number_iff, spelled]
    exact read_number?_infinity isSign
  · intro noNumber
    exact coerce_eq_string_iff.2 ⟨noNumber, rfl⟩

/-- A zero keeps its sign, infinity may have a plus sign, and a power needs digits. -/
theorem coerce_follows_grammar_signed_zero :
    coerce " -0\n" = .number (.finite true .zero) ∧ coerce "+Infinity" = .number (.infinite false) ∧
      coerce " 1e" = .string " 1e" := by
  have isDecimal : SpellsDecimal (['0'] ++ []) (natOfDigits ['0'] * 10 ^ (0 : Int)) :=
    .parts (.whole rfl) .absent
  have isZero : (natOfDigits ['0'] : ℚ) * 10 ^ (0 : Int) = 0 := by
    have noDigits : natOfDigits ['0'] = 0 := rfl
    rw [noDigits, Nat.cast_zero, zero_mul]
  have zero : Binary64.Rounds true 0 (.finite true .zero) := by
    apply Binary64.rounds_zero true le_rfl
    rw [zero_mul, mul_zero]
    exact zero_le_one
  have noNumber : ¬IsNumberText (trim " 1e".toList) := by
    rw [← isSome_read_number?_iff]
    decide
  rw [isZero] at isDecimal
  have signed := (coerce_follows_grammar " -0\n").2.1 ['-'] true ['0'] 0 .minus isDecimal rfl
  exact ⟨(signed _).2 zero, (coerce_follows_grammar "+Infinity").2.2.1 ['+'] false .plus rfl,
    (coerce_follows_grammar " 1e").2.2.2.1 noNumber⟩

end Value

end TableQuery
