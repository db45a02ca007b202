import TableQuery.Proofs.Query.Comparison
import TableQuery.Proofs.Query.Printing
import TableQuery.Proofs.Value.Display

/-!
Constants of a query beside cells with the same text. A number means the same double on both sides,
although the query reads its minus sign apart and a cell may stand in white space. A string constant
is never read as a number, so it is met only by a cell that stays a string.
-/

namespace TableQuery

/-- A text whose tokens are a query with this comparison in its filter, in whatever layout. It is
what a user may write to compare with a constant. -/
def ComparesWith (source : String) (fields : Fields) (field : String) (sign : Comparator)
    (constant : Token) : Prop :=
  ∃ front last, DerivesFields front fields ∧ last.outcome = .endOfInput ∧
    (Lexer.start source.toList).Reads
      (.project :: (front ++ [.filter, .identifier field, .comparator sign, constant])) last

theorem ComparesWith.read_eq_ok {source : String} {fields : Fields} {field : String}
    {sign : Comparator} {token : Token} {constant : WrittenConstant}
    (compares : ComparesWith source fields field sign token)
    (derived : DerivesConstant token constant) :
    Query.read source = .ok ⟨fields, some ⟨field, sign, constant.value⟩⟩ := by
  obtain ⟨front, last, kept, ended, read⟩ := compares
  have whole := DerivesQuery.query kept (.present (.comparison field sign derived))
  rw [Query.read, parse_of_derives_query read ended whole]
  rfl

theorem compares_with_spaced {fields : Fields} (printable : fields.Printable) {field : String}
    (isName : IsFieldName field) (sign : Comparator) {constant : Token}
    (wellFormed : constant.WellFormed) :
    ComparesWith ("PROJECT " ++ fields.text ++ " FILTER " ++ field ++ " " ++ sign.spelling ++ " " ++
      String.ofList constant.spelling) fields field sign constant := by
  obtain ⟨tokens, derived, front⟩ :=
    exists_spelled_front printable isName sign constant.spelling
  have spelled := front.append (.last wellFormed)
  obtain ⟨last, read, ended⟩ := spelled.exists_reads [] []
  refine ⟨tokens, last, derived, Lexer.outcome_of_blank (by simp [ended]), ?_⟩
  simpa [Lexer.start] using read

theorem is_signed_numeral_iff {text : List Char} :
    IsSignedNumeral text ↔
      ∃ negative digits, IsNumeral digits ∧ text = withSign negative digits := by
  constructor
  · rintro (unsigned | ⟨digits, rfl, unsigned⟩)
    · exact ⟨false, text, unsigned, rfl⟩
    · exact ⟨true, digits, unsigned, rfl⟩
  · rintro ⟨negative, digits, numeral, rfl⟩
    exact is_signed_numeral_with_sign numeral negative

/-- Reading a decimal with a minus sign or turning its sign round afterwards is the same. -/
theorem Decimal.negate_to_binary64 (decimal : Decimal) :
    (decimal.toBinary64 false).negate = decimal.toBinary64 true := by
  rcases decimal.to_binary64_cases with infinite | ⟨magnitude, finite, -⟩
  · rw [infinite, infinite]
    rfl
  · rw [finite, finite]
    rfl

theorem value_of_numeral {numeral : String} {negative : Bool} {digits : List Char}
    {decimal : Decimal} (isNumeral : IsNumeral digits)
    (spelled : numeral.toList = withSign negative digits)
    (read : Decimal.read? digits = some decimal) :
    (WrittenConstant.ofNumeral numeral).value = .number (decimal.toBinary64 negative) := by
  have written : numeral = String.ofList (withSign negative digits) := by
    rw [← spelled, String.ofList_toList]
  rw [written, of_numeral_with_sign isNumeral, WrittenConstant.value, String.toList_ofList,
    read_double?_of_is_numeral isNumeral, read]
  cases negative with
  | false => rfl
  | true => exact congrArg Literal.number decimal.negate_to_binary64

def IsPadded (raw text : String) : Prop :=
  ∃ front back, (∀ character ∈ front, isWhitespace character = true) ∧
    (∀ character ∈ back, isWhitespace character = true) ∧
    raw.toList = front ++ (text.toList ++ back)

/-- A numeral means one double, in a query and in a cell, and this double is a number. -/
theorem exists_double_of_is_signed_numeral {numeral : String}
    (wellFormed : IsSignedNumeral numeral.toList) :
    ∃ double, double ≠ .nan ∧ (WrittenConstant.ofNumeral numeral).value = .number double ∧
      ∀ raw, IsPadded raw numeral → Value.coerce raw = .number double := by
  obtain ⟨negative, digits, isNumeral, spelled⟩ := is_signed_numeral_iff.1 wellFormed
  obtain ⟨decimal, read⟩ := Decimal.exists_read? isNumeral
  refine ⟨decimal.toBinary64 negative, decimal.to_binary64_ne_nan negative,
    value_of_numeral isNumeral spelled read, ?_⟩
  rintro raw ⟨front, back, blankFront, blankBack, padded⟩
  rw [spelled] at padded
  exact Value.coerce_numeral blankFront blankBack padded isNumeral read

theorem Comparator.relates_self_iff {Place : Type} [LT Place] {place : Place}
    (irreflexive : ¬place < place) (sign : Comparator) :
    sign.Relates place place ↔ sign = .equal ∨ sign = .greaterEqual ∨ sign = .lessEqual := by
  cases sign <;> simp [Relates, irreflexive]

theorem satisfies_number_self_iff {double : Binary64} (someNumber : double ≠ .nan)
    (sign : Comparator) :
    (Value.number double).Satisfies sign (.number double) ↔
      sign = .equal ∨ sign = .greaterEqual ∨ sign = .lessEqual := by
  obtain ⟨place, ranked⟩ := Binary64.exists_rank? someNumber
  rw [← Comparator.relates_self_iff (Int.lt_irrefl place) sign]
  constructor
  · rintro ⟨left, right, isLeft, isRight, relates⟩
    cases ranked.symm.trans isLeft
    cases ranked.symm.trans isRight
    exact relates
  · intro relates
    exact ⟨place, place, ranked, ranked, relates⟩

/-- A cell that was coerced from the body of a string constant satisfies a comparison with it only
if it stayed a string. -/
theorem exists_string_of_satisfies {sign : Comparator} {body : String}
    (satisfies : (Value.coerce body).Satisfies sign (.string body)) :
    Value.coerce body = .string body := by
  cases found : Value.coerce body with
  | string text => rw [(Value.coerce_eq_string_iff.1 found).2]
  | number double =>
      rw [found] at satisfies
      exact satisfies.elim
  | absent =>
      rw [found] at satisfies
      exact satisfies.elim

theorem satisfies_equal_string_iff (body : String) :
    (Value.coerce body).Satisfies .equal (.string body) ↔
      ∃ text, Value.coerce body = .string text := by
  constructor
  · intro satisfies
    exact ⟨body, exists_string_of_satisfies satisfies⟩
  · rintro ⟨text, found⟩
    rw [found, (Value.coerce_eq_string_iff.1 found).2]
    rfl

/-- Text in a query and the same text in a cell mean the same. A numeral is one double on both
sides, so the cell is equal to the constant and neither above nor below it. A string constant is
equal to the cell of the same text if that cell is a string, and not comparable with it otherwise.
Every such constant occurs in a query. -/
theorem constant_agrees_with_cell :
    (∀ numeral : String, IsSignedNumeral numeral.toList → ∃ double,
      (∀ source fields field sign, ComparesWith source fields field sign (.number numeral) →
        Query.read source = .ok ⟨fields, some ⟨field, sign, .number double⟩⟩) ∧
      ∀ raw, IsPadded raw numeral → Value.coerce raw = .number double ∧
        ∀ row field sign, Row.get row field = Value.coerce raw →
          (Condition.holds ⟨field, sign, .number double⟩ row = true ↔
            sign = .equal ∨ sign = .greaterEqual ∨ sign = .lessEqual)) ∧
    (∀ body : String, backtick ∉ body.toList →
      (∀ source fields field sign, ComparesWith source fields field sign (.string body) →
        Query.read source = .ok ⟨fields, some ⟨field, sign, .string body⟩⟩) ∧
      ∀ row field, Row.get row field = Value.coerce body →
        (Condition.holds ⟨field, .equal, .string body⟩ row = true ↔
          ∃ text, Value.coerce body = .string text) ∧
        ((¬∃ text, Value.coerce body = .string text) →
          ∀ sign, Condition.holds ⟨field, sign, .string body⟩ row = false)) ∧
    ∀ fields field sign (constant : Token), fields.Printable → IsFieldName field →
      constant.WellFormed →
      ComparesWith ("PROJECT " ++ fields.text ++ " FILTER " ++ field ++ " " ++
        sign.spelling ++ " " ++ String.ofList constant.spelling) fields field sign constant := by
  refine ⟨?_, ?_, ?_⟩
  · intro numeral wellFormed
    obtain ⟨double, someNumber, value, coerced⟩ := exists_double_of_is_signed_numeral wellFormed
    refine ⟨double, ?_, ?_⟩
    · intro source fields field sign compares
      rw [compares.read_eq_ok (derives_constant_number_iff.2 rfl), value]
    · intro raw padded
      refine ⟨coerced raw padded, ?_⟩
      intro row field sign found
      rw [Condition.holds_iff, found, coerced raw padded]
      exact satisfies_number_self_iff someNumber sign
  · intro body _
    constructor
    · intro source fields field sign compares
      rw [compares.read_eq_ok (.string body)]
      rfl
    · intro row field found
      constructor
      · rw [Condition.holds_iff, found]
        exact satisfies_equal_string_iff body
      · intro noString sign
        rw [Bool.eq_false_iff, ne_eq, Condition.holds_iff, found]
        intro satisfies
        exact noString ⟨body, exists_string_of_satisfies satisfies⟩
  · intro fields field sign constant printable isName wellFormed
    exact compares_with_spaced printable isName sign wellFormed

/-- A negative zero keeps its sign on both sides, and the digits of a string constant are no
number. -/
theorem constant_agrees_with_cell_negative_zero :
    Value.coerce "\t-0 " = .number (.finite true .zero) ∧
      Query.read "PROJECT * FILTER a = -0" =
        .ok ⟨.wildcard, some ⟨"a", .equal, .number (.finite true .zero)⟩⟩ ∧
      Condition.holds ⟨"a", .greaterEqual, .number (.finite true .zero)⟩
        (Row.empty.insert "a" (.coerce "\t-0 ")) = true ∧
      Query.read "PROJECT * FILTER a <= `12`" =
        .ok ⟨.wildcard, some ⟨"a", .lessEqual, .string "12"⟩⟩ ∧
      Condition.holds ⟨"a", .lessEqual, .string "12"⟩
        (Row.empty.insert "a" (.coerce "12")) = false := by
  obtain ⟨numbers, strings, queries⟩ := constant_agrees_with_cell
  have isName : IsFieldName "a" := ⟨⟨'a', [], rfl, rfl, by simp⟩, by decide, by decide⟩
  have numeral : IsSignedNumeral "-0".toList := .inr ⟨['0'], rfl, .whole rfl⟩
  have padded : IsPadded "\t-0 " "-0" := by
    refine ⟨['\t'], [' '], ?_, ?_, rfl⟩ <;> exact List.all_eq_true.1 (by decide)
  obtain ⟨double, read, cells⟩ := numbers "-0" numeral
  obtain ⟨cell, holds⟩ := cells "\t-0 " padded
  have zero : Value.coerce "\t-0 " = .number (.finite true .zero) := by decide
  cases cell.symm.trans zero
  have compares := queries .wildcard "a" .equal (.number "-0") trivial isName numeral
  refine ⟨zero, read _ _ _ _ compares, ?_, ?_, ?_⟩
  · exact (holds _ "a" .greaterEqual (Row.get_insert_self ..)).2 (.inr (.inl rfl))
  · have plain : backtick ∉ "12".toList := by decide
    have compares := queries .wildcard "a" .lessEqual (.string "12") trivial isName plain
    exact (strings "12" plain).1 _ _ _ _ compares
  · have plain : backtick ∉ "12".toList := by decide
    have noString : ¬∃ text, Value.coerce "12" = .string text := by
      rintro ⟨text, found⟩
      have isNumber : (readNumber? (trim "12".toList)).isSome := by decide +kernel
      exact (Value.coerce_eq_string_iff.1 found).1 (isSome_read_number?_iff.1 isNumber)
    exact ((strings "12" plain).2 _ "a" (Row.get_insert_self ..)).2 noString .lessEqual

end TableQuery
