import TableQuery.Report.Table
import TableQuery.Proofs.Delimited.Records
import TableQuery.Proofs.Number.Rounding
import TableQuery.Proofs.Text.Trimming
import TableQuery.Proofs.Value.Coercion

/-!
Values that are shown and read again. A number is shown as a numeral or as the word for infinity,
which is read as the same double, and a string is shown as it is. So a loaded cell comes back from
the text that the table shows.
-/

namespace TableQuery

theorem is_whitespace_eq_false_of_is_numeral {text : List Char} (numeral : IsNumeral text) :
    ∀ character ∈ text, isWhitespace character = false := by
  have plainDigits {digits : List Char} (isDigits : allDigits digits) :
      ∀ digit ∈ digits, isWhitespace digit = false := fun digit member =>
    is_whitespace_eq_false_of_isDigit ((all_digits_iff.1 isDigits).2 digit member)
  cases numeral with
  | whole isWhole => exact plainDigits isWhole
  | fraction isWhole isFraction =>
      intro character member
      rcases List.mem_append.1 member with before | after
      · exact plainDigits isWhole character before
      · rcases List.mem_cons.1 after with rfl | after
        · rfl
        · exact plainDigits isFraction character after

theorem trim_with_sign {digits : List Char} (numeral : IsNumeral digits) (negative : Bool) :
    trim (withSign negative digits) = withSign negative digits := by
  have plain := is_whitespace_eq_false_of_is_numeral numeral
  apply trim_of_plain
  cases negative with
  | false => exact plain
  | true => exact List.forall_mem_cons.2 ⟨rfl, plain⟩

namespace Value

theorem coerce_numeral {raw : String} {front back digits : List Char} {negative : Bool}
    (blankFront : ∀ character ∈ front, isWhitespace character = true)
    (blankBack : ∀ character ∈ back, isWhitespace character = true)
    (spelled : raw.toList = front ++ (withSign negative digits ++ back))
    {decimal : Decimal} (numeral : IsNumeral digits) (read : Decimal.read? digits = some decimal) :
    coerce raw = .number (decimal.toBinary64 negative) := by
  rw [coerce_eq_number_iff, spelled, trim_surrounded blankFront blankBack,
    trim_with_sign numeral]
  exact read_number?_with_sign read numeral negative

theorem coerce_text_infinite (negative : Bool) :
    coerce (number (.infinite negative)).text = .number (.infinite negative) := by
  rw [coerce_eq_number_iff]
  cases negative <;> decide

theorem coerce_positional {magnitude : Magnitude} {decimal : Decimal}
    (readsBack : magnitude.ReadsBack decimal) (negative : Bool) :
    coerce (String.ofList (withSign negative decimal.positional)) =
      .number (.finite negative magnitude) := by
  have kept : magnitude.ReadsBack decimal.spelledOut := Decimal.to_binary64_spelled_out readsBack
  have blank : ∀ character ∈ ([] : List Char), isWhitespace character = true := by simp
  have spelled : (String.ofList (withSign negative decimal.positional)).toList =
      [] ++ (withSign negative decimal.positional ++ []) := by
    rw [String.toList_ofList, List.append_nil, List.nil_append]
  rw [← Magnitude.to_binary64_of_reads_back kept negative]
  exact coerce_numeral blank blank spelled decimal.is_numeral_positional decimal.read?_positional

theorem coerce_text_finite (negative : Bool) (magnitude : Magnitude) :
    coerce (number (.finite negative magnitude)).text = .number (.finite negative magnitude) := by
  rw [text, Binary64.plain]
  exact coerce_positional (Magnitude.reads_back_shortest .awayFromZero magnitude) negative

theorem coerce_text_number {double : Binary64} (someNumber : double ≠ .nan) :
    coerce (number double).text = .number double := by
  cases double with
  | nan => exact absurd rfl someNumber
  | infinite negative => exact coerce_text_infinite negative
  | finite negative magnitude => exact coerce_text_finite negative magnitude

theorem coerce_text_coerce (raw : String) : coerce (coerce raw).text = coerce raw := by
  cases found : coerce raw with
  | number double =>
      apply coerce_text_number
      rintro rfl
      exact coerce_ne_nan raw found
  | string text =>
      have same := (coerce_eq_string_iff.1 found).2
      rw [same] at found ⊢
      exact found
  | absent => exact absurd found (coerce_ne_absent raw)

open Delimited in
/-- What stands in a loaded row is a coerced cell, unless the record of the row is too short and the
value is absent. -/
theorem exists_coerce_eq_get {options : ReadOptions} {bytes : List UInt8} {dataset : Dataset}
    (loaded : Dataset.read options bytes = .ok dataset) {row : Row} (member : row ∈ dataset.rows)
    {header : String} (present : row.get header ≠ .absent) :
    ∃ raw, row.get header = coerce raw := by
  obtain ⟨records, -, rows⟩ := exists_records_of_read loaded
  rw [rows] at member
  obtain ⟨record, -, rfl⟩ := List.mem_map.1 member
  rw [get_row_of] at present ⊢
  unfold cellValue at present ⊢
  split at present
  · exact ⟨_, rfl⟩
  · exact absurd rfl present

/-- No value changes when it is shown and read again: not what became of a raw cell, no number, no
kept string, and no loaded cell that a table shows. -/
theorem coerce_displayed :
    (∀ raw, coerce (coerce raw).text = coerce raw) ∧
      (∀ double, double ≠ .nan → coerce (number double).text = .number double) ∧
      (∀ raw kept, coerce raw = .string kept → coerce (string kept).text = .string kept) ∧
      ∀ options bytes dataset, Dataset.read options bytes = .ok dataset →
        ∀ row ∈ dataset.rows, ∀ header, row.get header ≠ .absent →
          coerce (String.ofList ((Table.column dataset.rows header).cell row)) =
            row.get header := by
  refine ⟨coerce_text_coerce, fun _ => coerce_text_number, ?_, ?_⟩
  · intro raw kept found
    rw [← found]
    exact coerce_text_coerce raw
  · intro options bytes dataset loaded row member header present
    obtain ⟨raw, same⟩ := exists_coerce_eq_get loaded member present
    have shown : (Table.column dataset.rows header).cell row = (row.get header).text.toList := rfl
    rw [shown, String.ofList_toList, same]
    exact coerce_text_coerce raw

/-- A negative infinity, a string with white space around it, and a loaded number with a power. -/
theorem coerce_displayed_loaded_power :
    let bytes := Utf8.encode "size\n 1e3\n".toList
    let row := Delimited.rowOf ["size"] [" 1e3"]
    coerce (number (.infinite true)).text = .number (.infinite true) ∧
      coerce (string " x ").text = .string " x " ∧
      Dataset.read ⟨44, false⟩ bytes = .ok ⟨["size"], [row]⟩ ∧
      coerce (String.ofList ((Table.column [row] "size").cell row)) = row.get "size" := by
  intro bytes row
  have loaded : Dataset.read ⟨44, false⟩ bytes = .ok ⟨["size"], [row]⟩ :=
    eq_ok_of_toOption (by decide +kernel)
  have present : row.get "size" ≠ .absent := by decide +kernel
  have kept : coerce " x " = .string " x " := by decide
  obtain ⟨-, numbers, strings, cells⟩ := coerce_displayed
  exact ⟨numbers (.infinite true) Binary64.noConfusion, strings " x " " x " kept, loaded,
    cells _ _ _ loaded row (List.mem_singleton_self row) "size" present⟩

end Value

end TableQuery
