import TableQuery.Query.Evaluation
import TableQuery.Proofs.Number.Rounding
import TableQuery.Proofs.Query.Spacing

/-!
Queries that are written out and read again. A query comes back unchanged exactly when it is
printable: its names are names of the grammar and its constant has a spelling there. A query that
was read from a text fails to be printable in one way only, with a number that was too large and
became infinite.
-/

namespace TableQuery

def Literal.IsInfinite (literal : Literal) : Prop :=
  ∃ negative, literal = .number (.infinite negative)

def Literal.Printable : Literal → Prop
  | number (.finite _ _) => True
  | number _ => False
  | string body => backtick ∉ body.toList

def Fields.Printable : Fields → Prop
  | wildcard => True
  | named names => names ≠ [] ∧ ∀ name ∈ names, IsFieldName name

namespace Query

def Printable (query : Query Literal) : Prop :=
  query.fields.Printable ∧
    ∀ condition ∈ query.filter, IsFieldName condition.field ∧ condition.constant.Printable

def HasInfiniteLiteral (query : Query Literal) : Prop :=
  ∃ condition ∈ query.filter, condition.constant.IsInfinite

end Query

theorem Literal.not_printable_of_is_infinite {literal : Literal} (infinite : literal.IsInfinite) :
    ¬literal.Printable := by
  obtain ⟨negative, rfl⟩ := infinite
  exact id

theorem blank_space : ∀ character ∈ [' '], isWhitespace character = true :=
  List.all_eq_true.1 (by decide)

/-- A space before a token, and another after it, is always enough. -/
theorem Spells.spaced {rest suffix : List Char} {token : Token} {tokens : List Token}
    (wellFormed : token.WellFormed) (later : Spells rest tokens (' ' :: suffix)) :
    Spells rest (token :: tokens) (' ' :: (token.spelling ++ ' ' :: suffix)) := by
  refine .cons [' '] token blank_space wellFormed ?_ later
  intro character first
  cases first
  cases token with
  | comparator sign => cases sign <;> rfl
  | _ => rfl

theorem exists_spelled_names {names : List String} (nonempty : names ≠ [])
    (fieldNames : ∀ name ∈ names, IsFieldName name) {suffix : List Char}
    (ends : ∀ character ∈ suffix.head?, isWordCharacter character = false) :
    ∃ tokens, DerivesNames tokens names ∧
      Spells suffix tokens (' ' :: ((", ".intercalate names).toList ++ suffix)) := by
  induction names with
  | nil => exact absurd rfl nonempty
  | cons name names induction =>
      have isName := fieldNames name (List.mem_cons_self ..)
      cases names with
      | nil =>
          rw [String.intercalate_singleton]
          exact ⟨_, .last name, .cons [' '] (.identifier name) blank_space isName ends .nil⟩
      | cons second names =>
          have later : ∀ other ∈ second :: names, IsFieldName other := by
            intro other member
            exact fieldNames other (List.mem_cons_of_mem _ member)
          obtain ⟨tokens, derived, spelled⟩ := induction (List.cons_ne_nil _ _) later
          have comma : Spells suffix (.comma :: tokens) (',' :: _) :=
            .cons [] .comma (by simp) trivial (fun _ _ => rfl) spelled
          have spelledName := Spells.cons [' '] (.identifier name) blank_space isName
            (by intro character first; cases first; rfl) comma
          refine ⟨_, .more name derived, ?_⟩
          rw [String.intercalate_cons_cons]
          simp only [String.toList_append, List.append_assoc]
          exact spelledName

theorem exists_spelled_fields {fields : Fields} (printable : fields.Printable)
    {suffix : List Char} (ends : ∀ character ∈ suffix.head?, isWordCharacter character = false) :
    ∃ tokens, DerivesFields tokens fields ∧
      Spells suffix tokens (' ' :: (fields.text.toList ++ suffix)) := by
  cases fields with
  | wildcard =>
      exact ⟨_, .wildcard, .cons [' '] .star blank_space trivial (fun _ _ => rfl) .nil⟩
  | named names =>
      obtain ⟨tokens, derived, spelled⟩ := exists_spelled_names printable.1 printable.2 ends
      exact ⟨tokens, .named derived, spelled⟩

theorem Spells.last {token : Token} (wellFormed : token.WellFormed) :
    Spells [] [token] (' ' :: token.spelling) := by
  have spelled := Spells.cons [' '] token blank_space wellFormed (fun _ found => by cases found)
    (.nil : Spells [] [] [])
  rwa [List.append_nil] at spelled

theorem is_signed_numeral_with_sign {digits : List Char} (numeral : IsNumeral digits)
    (negative : Bool) : IsSignedNumeral (withSign negative digits) := by
  cases negative with
  | false => exact .inl numeral
  | true => exact .inr ⟨digits, rfl, numeral⟩

theorem of_numeral_with_sign {digits : List Char} (numeral : IsNumeral digits) (negative : Bool) :
    WrittenConstant.ofNumeral (String.ofList (withSign negative digits)) =
      .number negative (String.ofList digits) := by
  cases negative with
  | true => simp [WrittenConstant.ofNumeral, withSign]
  | false =>
      obtain ⟨first, rest, rfl, digit⟩ := exists_digit_of_is_numeral numeral
      unfold WrittenConstant.ofNumeral
      split
      · rename_i signed
        rw [String.toList_ofList] at signed
        cases signed
        exact absurd digit (by decide)
      · rfl

theorem value_number_finite {digits : List Char} {magnitude : Magnitude}
    (read : readDouble? digits = some (.finite false magnitude)) (negative : Bool) :
    (WrittenConstant.number negative (String.ofList digits)).value =
      .number (.finite negative magnitude) := by
  rw [WrittenConstant.value, String.toList_ofList, read]
  cases negative <;> rfl

theorem exists_spelled_constant {literal : Literal} (printable : literal.Printable) :
    ∃ token constant, DerivesConstant token constant ∧ constant.value = literal ∧
      Spells [] [token] (' ' :: literal.text.toList) := by
  cases literal with
  | string body =>
      have spelling : (Literal.string body).text.toList = (Token.string body).spelling := by
        rw [Literal.text, String.toList_append, String.toList_append]
        rfl
      rw [spelling]
      exact ⟨.string body, .string body, .string body, rfl, .last printable⟩
  | number double =>
      cases double with
      | nan => exact printable.elim
      | infinite negative => exact printable.elim
      | finite negative magnitude =>
          have numeral := Decimal.is_numeral_positional (magnitude.shortest .awayFromZero)
          have read := read_double?_positional_shortest magnitude .awayFromZero
          have wellFormed :
              (Token.number (Literal.number (.finite negative magnitude)).text).WellFormed := by
            rw [Token.WellFormed, Literal.text, String.toList_ofList]
            exact is_signed_numeral_with_sign numeral negative
          refine ⟨_, _, derives_constant_number_iff.2 rfl, ?_, .last wellFormed⟩
          rw [Literal.text, Binary64.plain, of_numeral_with_sign numeral, value_number_finite read]

theorem exists_spelled_project {fields : Fields} (printable : fields.Printable)
    (suffix : List Char) (ends : ∀ character ∈ suffix.head?, isWordCharacter character = false) :
    ∃ tokens, DerivesFields tokens fields ∧
      Spells suffix (.project :: tokens)
        ("PROJECT".toList ++ ' ' :: (fields.text.toList ++ suffix)) := by
  obtain ⟨tokens, derived, spelled⟩ := exists_spelled_fields printable ends
  refine ⟨tokens, derived, .cons [] .project (by simp) trivial ?_ spelled⟩
  intro character first
  cases first
  rfl

theorem exists_spelled_front {fields : Fields} (printable : fields.Printable) {field : String}
    (isName : IsFieldName field) (sign : Comparator) (constant : List Char) :
    ∃ tokens, DerivesFields tokens fields ∧
      Spells (' ' :: constant)
        (.project :: tokens ++ [.filter, .identifier field, .comparator sign])
        ("PROJECT".toList ++ ' ' :: (fields.text.toList ++ ' ' :: ("FILTER".toList ++
          ' ' :: (field.toList ++ ' ' :: (sign.spelling.toList ++ ' ' :: constant))))) := by
  have tail : Spells (' ' :: constant) [.filter, .identifier field, .comparator sign] _ :=
    .spaced trivial (.spaced isName (.spaced trivial .nil))
  obtain ⟨tokens, derived, spelled⟩ := exists_spelled_project printable (' ' :: _)
    (by intro character first; cases first; rfl)
  exact ⟨tokens, derived, spelled.append tail⟩

namespace Query

theorem toList_text_unfiltered (fields : Fields) :
    (⟨fields, none⟩ : Query Literal).text.toList =
      "PROJECT".toList ++ ' ' :: (fields.text.toList ++ []) := by
  simp [text]

theorem toList_text_filtered (fields : Fields) (condition : Condition Literal) :
    (⟨fields, some condition⟩ : Query Literal).text.toList =
      "PROJECT".toList ++ ' ' :: (fields.text.toList ++ ' ' :: ("FILTER".toList ++
        ' ' :: (condition.field.toList ++ ' ' :: (condition.comparator.spelling.toList ++
          ' ' :: condition.constant.text.toList)))) := by
  simp [text, Condition.text]

theorem parse_of_spells {text : String} {tokens : List Token} {written : WrittenQuery}
    (spelled : Spells [] tokens text.toList) (derived : DerivesQuery tokens written) :
    parse text = .ok written := by
  obtain ⟨last, read, ended⟩ := spelled.exists_reads [] []
  have noMore : last.outcome = .endOfInput := Lexer.outcome_of_blank (by simp [ended])
  exact parse_of_derives_query read noMore derived

theorem read_text_of_printable {query : Query Literal} (printable : query.Printable) :
    read query.text = .ok query := by
  obtain ⟨fields, filter⟩ := query
  have isKept : fields.Printable := printable.1
  cases filter with
  | none =>
      obtain ⟨tokens, derived, spelled⟩ := exists_spelled_project isKept [] (by simp)
      rw [← toList_text_unfiltered] at spelled
      have whole := DerivesQuery.query derived .absent
      rw [List.append_nil] at whole
      rw [read, parse_of_spells spelled whole]
      rfl
  | some condition =>
      obtain ⟨isName, isConstant⟩ := printable.2 condition rfl
      obtain ⟨field, sign, literal⟩ := condition
      obtain ⟨token, constant, value, same, last⟩ := exists_spelled_constant isConstant
      obtain ⟨tokens, derived, front⟩ :=
        exists_spelled_front isKept isName sign literal.text.toList
      have spelled := front.append last
      rw [← toList_text_filtered fields ⟨field, sign, literal⟩] at spelled
      have whole := DerivesQuery.query derived (.present (.comparison field sign value))
      rw [List.append_assoc] at spelled
      rw [read, parse_of_spells spelled whole]
      simp only [Except.map, evaluate, mapConstant, Option.map_some, same]

/-- The word for infinity is no constant: with its sign it is no token, and without it is a name. So
a query with an infinite constant is not read back from its own text. -/
theorem outcome_of_infinity (negative : Bool) (before spelling : List Char) :
    (Lexer.mk before spelling (' ' :: Binary64.plain "inf".toList (.infinite negative))).outcome =
      if negative then .failure (.unexpectedCharacter '-') else .token (.identifier "inf") := by
  cases negative <;> rfl

theorem exists_error_of_infinite {fields : Fields} (printable : fields.Printable) {field : String}
    (isName : IsFieldName field) (sign : Comparator) (negative : Bool) :
    ∃ error, read (text ⟨fields, some ⟨field, sign, .number (.infinite negative)⟩⟩) =
      .error error := by
  obtain ⟨tokens, derived, front⟩ := exists_spelled_front printable isName sign
    (Literal.number (.infinite negative)).text.toList
  obtain ⟨⟨before, spelling, rest⟩, reads, ended⟩ := front.exists_reads [] []
  rw [← toList_text_filtered fields ⟨field, sign, .number (.infinite negative)⟩] at reads
  rw [Literal.text, String.toList_ofList] at ended
  cases ended
  have outcome := outcome_of_infinity negative before spelling
  have taken := Progress.advance_of_derives_fields_filter derived field sign
  have stops : (Progress.beforeConstant fields field sign).StopsBefore
      ⟨before, spelling, ' ' :: Binary64.plain "inf".toList (.infinite negative)⟩ := by
    intro token found
    rw [outcome] at found
    cases negative <;> cases found
    rfl
  rw [read, parse_eq_run, TokenStream.ofSource, Lexer.start,
    Progress.outcome_run_of_reads reads taken, Progress.outcome_run_of_stops_before stops,
    Progress.verdict, outcome]
  cases negative <;> exact ⟨_, rfl⟩

end Query

/-- A numeral is a number, though it may be too large to be finite. -/
theorem exists_read_double?_of_is_numeral {text : List Char} (numeral : IsNumeral text) :
    ∃ double, readDouble? text = some double ∧ double ≠ .nan := by
  obtain ⟨decimal, read⟩ := Decimal.exists_read? numeral
  refine ⟨decimal.toBinary64 false, ?_, decimal.to_binary64_ne_nan false⟩
  rw [read_double?_of_is_numeral numeral, read]
  rfl

theorem is_numeral_of_derives_constant {numeral magnitude : String} {negative : Bool}
    (wellFormed : (Token.number numeral).WellFormed)
    (derived : DerivesConstant (.number numeral) (.number negative magnitude)) :
    IsNumeral magnitude.toList := by
  cases derived with
  | unsigned _ noSign =>
      rcases wellFormed with unsigned | ⟨digits, signed, -⟩
      · exact unsigned
      · exact absurd signed (noSign digits)
  | signed =>
      rw [Token.WellFormed, String.toList_append] at wellFormed
      rcases wellFormed with unsigned | ⟨digits, signed, isNumeral⟩
      · obtain ⟨first, rest, same, digit⟩ := exists_digit_of_is_numeral unsigned
        cases same
        exact absurd digit (by decide)
      · cases signed
        exact isNumeral

theorem printable_or_is_infinite_of_derives_constant {token : Token} {constant : WrittenConstant}
    (wellFormed : token.WellFormed) (derived : DerivesConstant token constant) :
    constant.value.Printable ∨ constant.value.IsInfinite := by
  cases constant with
  | string body =>
      cases derived
      exact .inl wellFormed
  | number negative magnitude =>
      cases token with
      | number numeral =>
          obtain ⟨double, read, someNumber⟩ :=
            exists_read_double?_of_is_numeral (is_numeral_of_derives_constant wellFormed derived)
          rw [WrittenConstant.value, read, Option.getD_some]
          cases double with
          | nan => exact absurd rfl someNumber
          | infinite sign => cases negative <;> exact .inr ⟨_, rfl⟩
          | finite sign size => cases negative <;> exact .inl trivial
      | _ => cases derived

theorem printable_of_derives_names {tokens : List Token} {names : List String}
    (wellFormed : ∀ token ∈ tokens, token.WellFormed) (derived : DerivesNames tokens names) :
    (Fields.named names).Printable := by
  induction derived with
  | last name =>
      refine ⟨List.cons_ne_nil _ _, ?_⟩
      intro other member
      rw [List.mem_singleton.1 member]
      exact wellFormed _ (List.mem_cons_self ..)
  | more name _ induction =>
      have later := induction fun token member =>
        wellFormed token (List.mem_cons_of_mem _ (List.mem_cons_of_mem _ member))
      refine ⟨List.cons_ne_nil _ _, ?_⟩
      intro other member
      rcases List.mem_cons.1 member with rfl | rest
      · exact wellFormed _ (List.mem_cons_self ..)
      · exact later.2 other rest

theorem printable_of_derives_fields {tokens : List Token} {fields : Fields}
    (wellFormed : ∀ token ∈ tokens, token.WellFormed) (derived : DerivesFields tokens fields) :
    fields.Printable := by
  cases derived with
  | wildcard => trivial
  | named list => exact printable_of_derives_names wellFormed list

theorem is_field_name_of_derives_condition {tokens : List Token}
    {condition : Condition WrittenConstant} (wellFormed : ∀ token ∈ tokens, token.WellFormed)
    (derived : DerivesCondition tokens condition) :
    IsFieldName condition.field ∧
      (condition.constant.value.Printable ∨ condition.constant.value.IsInfinite) := by
  cases derived with
  | comparison field sign value =>
      have isName := wellFormed (.identifier field) (by simp)
      exact ⟨isName, printable_or_is_infinite_of_derives_constant (wellFormed _ (by simp)) value⟩

namespace Query

/-- What is read from a text is printable but for a number that has become infinite: names and
strings are written as they were read, and so are the digits of a finite number. -/
theorem printable_or_has_infinite_literal_of_read {text : String} {query : Query Literal}
    (accepted : read text = .ok query) :
    query.Printable ∨ query.fields.Printable ∧ ∃ field sign negative, IsFieldName field ∧
      query.filter = some ⟨field, sign, .number (.infinite negative)⟩ := by
  obtain ⟨written, parsed, rfl⟩ := exists_of_map_eq_ok accepted
  obtain ⟨tokens, last, reads, -, derived⟩ := exists_derives_query_of_parse parsed
  have wellFormed := reads.well_formed
  cases derived with
  | @query front back fields filter kept condition =>
      have isKept : fields.Printable := by
        apply printable_of_derives_fields _ kept
        intro token member
        exact wellFormed token (by simp [member])
      cases condition with
      | absent => exact .inl ⟨isKept, fun _ found => by cases found⟩
      | @present tokens condition comparison =>
          have wellFormedThere : ∀ token ∈ tokens, token.WellFormed := by
            intro token member
            exact wellFormed token (by simp [member])
          obtain ⟨isName, printable | ⟨negative, infinite⟩⟩ :=
            is_field_name_of_derives_condition wellFormedThere comparison
          · refine .inl ⟨isKept, ?_⟩
            intro other found
            cases found
            exact ⟨isName, printable⟩
          · refine .inr ⟨isKept, condition.field, condition.comparator, negative, isName, ?_⟩
            rw [← infinite]
            rfl

theorem exists_error_of_has_infinite_literal {source : String} {query : Query Literal}
    (accepted : read source = .ok query) (infinite : query.HasInfiniteLiteral) :
    ∃ error, read query.text = .error error := by
  rcases printable_or_has_infinite_literal_of_read accepted with printable | unprintable
  · obtain ⟨condition, found, infinite⟩ := infinite
    exact absurd (printable.2 condition found).2 (Literal.not_printable_of_is_infinite infinite)
  · obtain ⟨isKept, field, sign, negative, isName, found⟩ := unprintable
    obtain ⟨fields, filter⟩ := query
    cases found
    exact exists_error_of_infinite isKept isName sign negative

theorem printable_of_read {source : String} {query : Query Literal}
    (accepted : read source = .ok query) (finite : ¬query.HasInfiniteLiteral) :
    query.Printable := by
  rcases printable_or_has_infinite_literal_of_read accepted with printable | unprintable
  · exact printable
  · obtain ⟨-, field, sign, negative, -, found⟩ := unprintable
    exact absurd ⟨_, found, negative, rfl⟩ finite

/-- What comes back unchanged has no infinite constant, as those are refused. -/
theorem finite_of_read_text {query : Query Literal} (same : read query.text = .ok query) :
    ¬query.HasInfiniteLiteral := by
  intro infinite
  obtain ⟨error, refused⟩ := exists_error_of_has_infinite_literal same infinite
  rw [same] at refused
  cases refused

/-- A query is read back from its own text exactly when it is printable. Of the queries that come
from a text, those with an infinite number are refused and all others are read back. -/
theorem read_text_eq_ok_iff_printable (query : Query Literal) :
    (read query.text = .ok query ↔ query.Printable) ∧
      ∀ source, read source = .ok query →
        (read query.text = .ok query ↔ ¬query.HasInfiniteLiteral) ∧
        (query.HasInfiniteLiteral → ∃ error, read query.text = .error error) := by
  refine ⟨⟨fun same => printable_of_read same (finite_of_read_text same),
    read_text_of_printable⟩, ?_⟩
  intro source accepted
  refine ⟨⟨finite_of_read_text, ?_⟩, exists_error_of_has_infinite_literal accepted⟩
  intro finite
  exact read_text_of_printable (printable_of_read accepted finite)

end Query

end TableQuery
