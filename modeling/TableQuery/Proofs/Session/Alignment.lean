import TableQuery.Proofs.FirstMention
import TableQuery.Proofs.Row
import TableQuery.Proofs.Session.SingleQuery

/-!
What becomes of a query text, by the names in it. A name that the dataset does not have is reported
once, where it is first mentioned; without such a name there is an answer, and its headers, its
table columns and the members of its rows are the same names in the same order.
-/

namespace TableQuery

def Query.mentions {Constant : Type} (query : Query Constant) : List String :=
  query.fields.names ++ (query.filter.map Condition.field).toList

/-- The headers of an answer, and how its rows stand under them. -/
structure Aligned (datasetHeaders : List String) (fields : Fields) (answer : Answer) : Prop where
  wildcard : fields = .wildcard → answer.headers = datasetHeaders
  named : ∀ names, fields = .named names →
    ListsMentions names (fun _ => True) answer.headers ∧
      ∀ row ∈ answer.rows, row.names = answer.headers ∧
        row.fields = answer.headers.map fun name => (name, row.get name)

/-- What becomes of a query that has been read. -/
structure Settles (dataset : Dataset) (query : Query Literal)
    (outcome : Except QueryError Answer) : Prop where
  unknown : ∀ names, outcome = .error (.unknownFields names) ↔
    names ≠ [] ∧ ListsMentions query.mentions (· ∉ dataset.headers) names
  answered : (∃ answer, outcome = .ok answer) ↔ ∀ name ∈ query.mentions, name ∈ dataset.headers
  aligned : ∀ answer, outcome = .ok answer → Aligned dataset.headers query.fields answer

namespace Session

variable (session : Session) (query : Query Literal)

theorem lists_mentions_unknown_fields :
    ListsMentions query.mentions (· ∉ session.dataset.headers) (session.unknownFields query) where
  members := by simp [unknownFields, Query.referencedFields, Query.mentions, Dataset.hasField]
  ordered := by
    rw [unknownFields, Query.referencedFields, collect_mentions_eq]
    exact (lists_mentions_first_mentions query.mentions).ordered.filter _

theorem unknown_fields_eq_nil_iff :
    session.unknownFields query = [] ↔ ∀ name ∈ query.mentions, name ∈ session.dataset.headers := by
  have members := (session.lists_mentions_unknown_fields query).members
  simp only [List.eq_nil_iff_forall_not_mem, members, not_and_not_right]

theorem aligned_of_executed {answer : Answer}
    (headers : answer.headers = session.headers query.fields)
    (rows : answer.rows = query.execute session.dataset.rows) :
    Aligned session.dataset.headers query.fields answer := by
  constructor
  · intro fields
    rw [headers, fields]
    rfl
  · intro names fields
    have distinct : answer.headers = firstMentions names := by
      rw [headers, fields]
      exact collect_mentions_eq names
    rw [distinct]
    refine ⟨lists_mentions_first_mentions names, ?_⟩
    intro row member
    rw [rows, Query.execute, fields] at member
    rcases List.mem_map.1 member with ⟨original, -, rfl⟩
    have sameNames : (Fields.select (.named names) original).names = firstMentions names :=
      original.names_project names
    refine ⟨sameNames, ?_⟩
    rw [← sameNames]
    exact Row.fields_eq_map _

theorem resolve_ne_rejected (error : SyntaxError) :
    session.resolve query ≠ .error (.rejected error) := by
  unfold resolve
  dsimp only
  split <;> simp

theorem settles_resolve : Settles session.dataset query (session.resolve query) := by
  have lists := session.lists_mentions_unknown_fields query
  by_cases allKnown : session.unknownFields query = []
  · have resolved : session.resolve query =
        .ok ⟨query, session.headers query.fields, query.execute session.dataset.rows⟩ := by
      rw [resolve, allKnown]
      rfl
    rw [resolved]
    constructor
    · intro names
      constructor
      · intro failed
        cases failed
      · rintro ⟨unknown, alsoLists⟩
        exact absurd ((alsoLists.unique lists).trans allKnown) unknown
    · have known := (session.unknown_fields_eq_nil_iff query).1 allKnown
      exact ⟨fun _ => known, fun _ => ⟨_, rfl⟩⟩
    · intro answer found
      cases found
      exact session.aligned_of_executed query rfl rfl
  · have resolved : session.resolve query =
        .error (.unknownFields (session.unknownFields query)) := by
      have nonempty : ¬(session.unknownFields query).isEmpty = true := by
        rwa [List.isEmpty_iff]
      rw [resolve]
      exact if_neg nonempty
    rw [resolved]
    constructor
    · intro names
      constructor
      · intro failed
        cases failed
        exact ⟨allKnown, lists⟩
      · rintro ⟨-, alsoLists⟩
        rw [alsoLists.unique lists]
    · constructor
      · rintro ⟨answer, found⟩
        cases found
      · intro known
        exact absurd ((session.unknown_fields_eq_nil_iff query).2 known) allKnown
    · intro answer found
      cases found

/-- A text is refused exactly when it cannot be parsed, and every other text is settled by the names
in its query. -/
theorem answer_settles (session : Session) (text : String) :
    (∀ error, session.answer text = .error (.rejected error) ↔ parse text = .error error) ∧
      ∀ query, Query.read text = .ok query →
        Settles session.dataset query (session.answer text) := by
  cases parsed : parse text with
  | error error =>
      rw [answer_eq_of_parse_error parsed, Query.read, parsed]
      constructor
      · simp
      · intro query read
        cases read
  | ok tree =>
      have settles := session.settles_resolve tree.evaluate
      rw [answer_eq_of_parse parsed, Query.read, parsed]
      constructor
      · intro error
        constructor
        · intro failed
          exact absurd failed (session.resolve_ne_rejected tree.evaluate error)
        · intro failed
          cases failed
      · intro query read
        cases read
        exact settles

/-- Of the names that are not there, the repeated one is reported once, and before the name in the
condition. A repeated name that is there gives one column. -/
theorem answer_settles_repeated_names :
    let ana := Row.ofList [("name", .string "Ana")]
    let session : Session := ⟨⟨["name", "age"], [ana]⟩, .table, false⟩
    let fields := Fields.named ["age", "name", "age"]
    let row := ana.project ["age", "name", "age"]
    session.answer "PROJECT zip, age, zip FILTER city = `Bern`" =
        .error (.unknownFields ["zip", "city"]) ∧
      session.answer "PROJECT age, name, age" = .ok ⟨⟨fields, none⟩, ["age", "name"], [row]⟩ ∧
      row.fields = [("age", row.get "age"), ("name", row.get "name")] := by
  intro ana session fields row
  have readUnknown : Query.read "PROJECT zip, age, zip FILTER city = `Bern`" =
      .ok ⟨.named ["zip", "age", "zip"], some ⟨"city", .equal, .string "Bern"⟩⟩ :=
    eq_ok_of_toOption (by decide +kernel)
  have readKnown : Query.read "PROJECT age, name, age" = .ok ⟨fields, none⟩ :=
    eq_ok_of_toOption (by decide +kernel)
  have found : session.answer "PROJECT age, name, age" =
      .ok ⟨⟨fields, none⟩, ["age", "name"], [row]⟩ := eq_ok_of_toOption (by decide +kernel)
  have unknown := ((session.answer_settles _).2 _ readUnknown).unknown ["zip", "city"]
  have aligned := ((session.answer_settles _).2 _ readKnown).aligned _ found
  have lists : ListsMentions ["zip", "age", "zip", "city"] (· ∉ ["name", "age"])
      ["zip", "city"] := ⟨by grind, by decide⟩
  refine ⟨unknown.2 ⟨by simp, lists⟩, found, ?_⟩
  exact ((aligned.named _ rfl).2 row (List.mem_singleton_self row)).2

end Session

end TableQuery
