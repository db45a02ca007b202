import TableQuery.Query.Progress

/-!
The query grammar as derivations, beside the automaton that reads it token by token. A derivation
says which token lists spell a query, and which query they spell. Both sides agree: a token list is
derived as a query exactly when the automaton reads all of it and holds that query at its end.
-/

namespace TableQuery

/-- `NumberLiteral | StringLiteral`. A leading minus sign is taken off, the digits stay as
written. -/
inductive DerivesConstant : Token → WrittenConstant → Prop
  | unsigned (numeral : String) (noSign : ∀ digits, numeral.toList ≠ '-' :: digits) :
      DerivesConstant (.number numeral) (.number false numeral)
  | signed (magnitude : String) :
      DerivesConstant (.number ("-" ++ magnitude)) (.number true magnitude)
  | string (body : String) : DerivesConstant (.string body) (.string body)

/-- `Identifier ("," Identifier)*`. -/
inductive DerivesNames : List Token → List String → Prop
  | last (name : String) : DerivesNames [.identifier name] [name]
  | more (name : String) {tokens : List Token} {names : List String}
      (rest : DerivesNames tokens names) :
      DerivesNames (.identifier name :: .comma :: tokens) (name :: names)

/-- `"*" | FieldList`. -/
inductive DerivesFields : List Token → Fields → Prop
  | wildcard : DerivesFields [.star] .wildcard
  | named {tokens : List Token} {names : List String} (list : DerivesNames tokens names) :
      DerivesFields tokens (.named names)

/-- `Identifier Comparator Value`. -/
inductive DerivesCondition : List Token → Condition WrittenConstant → Prop
  | comparison (field : String) (sign : Comparator) {token : Token} {constant : WrittenConstant}
      (value : DerivesConstant token constant) :
      DerivesCondition [.identifier field, .comparator sign, token] ⟨field, sign, constant⟩

/-- `("FILTER" Condition)?`. -/
inductive DerivesFilter : List Token → Option (Condition WrittenConstant) → Prop
  | absent : DerivesFilter [] none
  | present {tokens : List Token} {condition : Condition WrittenConstant}
      (comparison : DerivesCondition tokens condition) :
      DerivesFilter (.filter :: tokens) (some condition)

/-- `"PROJECT" Fields ("FILTER" Condition)?`, with nothing after it. The tree is the one that the
tokens spell, with numbers still as they are written. -/
inductive DerivesQuery : List Token → WrittenQuery → Prop
  | query {front back : List Token} {fields : Fields}
      {filter : Option (Condition WrittenConstant)}
      (kept : DerivesFields front fields) (condition : DerivesFilter back filter) :
      DerivesQuery (.project :: (front ++ back)) ⟨fields, filter⟩

theorem derives_constant_number_iff {numeral : String} {constant : WrittenConstant} :
    DerivesConstant (.number numeral) constant ↔ constant = .ofNumeral numeral := by
  constructor
  · intro derived
    cases derived with
    | unsigned _ noSign =>
        unfold WrittenConstant.ofNumeral
        split
        · rename_i magnitude signed
          exact absurd signed (noSign magnitude)
        · rfl
    | signed magnitude =>
        simp [WrittenConstant.ofNumeral, String.toList_append]
  · intro same
    unfold WrittenConstant.ofNumeral at same
    split at same
    · rename_i magnitude signed
      have spelled : numeral = "-" ++ String.ofList magnitude := by
        apply String.toList_inj.1
        simp [signed]
      rw [same, spelled]
      exact .signed _
    · rename_i unsigned
      rw [same]
      exact .unsigned numeral fun digits signed => unsigned digits signed

namespace Progress

def advance : Progress → List Token → Option Progress
  | progress, [] => some progress
  | progress, token :: tokens => (progress.step token).bind (·.advance tokens)

def readAll? (progress : Progress) (tokens : List Token) : Option WrittenQuery :=
  (progress.advance tokens).bind finish?

/-- Where the fields of a query have been read, and its filter or its end may follow. -/
def afterFields : Fields → Progress
  | .wildcard => afterStar
  | .named names => afterName names

@[simp] theorem advance_nil (progress : Progress) : progress.advance [] = some progress := rfl

theorem advance_append (progress : Progress) (front back : List Token) :
    progress.advance (front ++ back) = (progress.advance front).bind (·.advance back) := by
  induction front generalizing progress with
  | nil => rfl
  | cons token tokens induction =>
      simp only [List.cons_append, advance, Option.bind_assoc]
      congr 1
      funext next
      exact induction next

@[simp] theorem read_all?_nil (progress : Progress) : progress.readAll? [] = progress.finish? := rfl

theorem read_all?_cons (progress : Progress) (token : Token) (tokens : List Token) :
    progress.readAll? (token :: tokens) = (progress.step token).bind (·.readAll? tokens) := by
  simp only [readAll?, advance, Option.bind_assoc]

theorem read_all?_cons_of_step {progress next : Progress} {token : Token}
    (taken : progress.step token = some next) (tokens : List Token) :
    progress.readAll? (token :: tokens) = next.readAll? tokens := by
  rw [read_all?_cons, taken, Option.bind_some]

theorem read_all?_append {progress reached : Progress} {front : List Token}
    (read : progress.advance front = some reached) (back : List Token) :
    progress.readAll? (front ++ back) = reached.readAll? back := by
  rw [readAll?, advance_append, read]
  rfl

theorem advance_of_derives_names {tokens : List Token} {names : List String}
    (derived : DerivesNames tokens names) (earlier : List String) :
    (afterComma earlier).advance tokens = some (afterName (earlier ++ names)) := by
  induction derived generalizing earlier with
  | last name => rfl
  | more name _ induction =>
      have later := induction (earlier ++ [name])
      rw [List.append_assoc, List.singleton_append] at later
      exact later

theorem advance_of_derives_fields {tokens : List Token} {fields : Fields}
    (derived : DerivesFields tokens fields) :
    beforeFields.advance tokens = some (afterFields fields) := by
  cases derived with
  | wildcard => rfl
  | named list =>
      -- The first name has a state of its own; from the second on a comma stands before each.
      cases list with
      | last name => rfl
      | more name rest => exact advance_of_derives_names rest [name]

theorem step_of_derives_constant {token : Token} {constant : WrittenConstant}
    (derived : DerivesConstant token constant) (fields : Fields) (field : String)
    (sign : Comparator) :
    (beforeConstant fields field sign).step token =
      some (complete ⟨fields, some ⟨field, sign, constant⟩⟩) := by
  cases derived with
  | unsigned numeral noSign =>
      rw [derives_constant_number_iff.1 (.unsigned numeral noSign)]
      rfl
  | signed magnitude =>
      rw [derives_constant_number_iff.1 (.signed magnitude)]
      rfl
  | string body => rfl

theorem step_filter (fields : Fields) :
    (afterFields fields).step .filter = some (beforeConditionField fields) := by
  cases fields <;> rfl

theorem advance_of_derives_fields_filter {tokens : List Token} {fields : Fields}
    (derived : DerivesFields tokens fields) (field : String) (sign : Comparator) :
    beforeProject.advance (.project :: tokens ++ [.filter, .identifier field, .comparator sign]) =
      some (beforeConstant fields field sign) := by
  have front : beforeProject.advance (.project :: tokens) = some (afterFields fields) :=
    advance_of_derives_fields derived
  rw [advance_append, front, Option.bind_some, advance, step_filter]
  rfl

theorem read_all?_of_derives_filter {tokens : List Token}
    {filter : Option (Condition WrittenConstant)} (derived : DerivesFilter tokens filter)
    (fields : Fields) : (afterFields fields).readAll? tokens = some ⟨fields, filter⟩ := by
  cases derived with
  | absent => cases fields <;> rfl
  | present comparison =>
      cases comparison with
      | comparison field sign value =>
          rw [read_all?_cons_of_step (step_filter fields), read_all?_cons_of_step rfl,
            read_all?_cons_of_step rfl,
            read_all?_cons_of_step (step_of_derives_constant value fields field sign)]
          rfl

theorem read_all?_of_derives_query {tokens : List Token} {query : WrittenQuery}
    (derived : DerivesQuery tokens query) : beforeProject.readAll? tokens = some query := by
  cases derived with
  | query kept condition =>
      rw [read_all?_cons_of_step rfl, read_all?_append (advance_of_derives_fields kept)]
      exact read_all?_of_derives_filter condition _

theorem derives_condition_of_read_all? {fields : Fields} {tokens : List Token}
    {query : WrittenQuery} (read : (beforeConditionField fields).readAll? tokens = some query) :
    ∃ condition, DerivesCondition tokens condition ∧ query = ⟨fields, some condition⟩ := by
  match tokens with
  | .identifier field :: .comparator sign :: .number numeral :: rest =>
      cases rest with
      | nil =>
          cases read
          exact ⟨_, .comparison field sign (derives_constant_number_iff.2 rfl), rfl⟩
      | cons token rest => cases read
  | .identifier field :: .comparator sign :: .string body :: rest =>
      cases rest with
      | nil =>
          cases read
          exact ⟨_, .comparison field sign (.string body), rfl⟩
      | cons token rest => cases read

theorem derives_filter_of_read_all? {fields : Fields} {tokens : List Token} {query : WrittenQuery}
    (read : (afterFields fields).readAll? tokens = some query)
    (noComma : tokens.head? ≠ some .comma) :
    ∃ filter, DerivesFilter tokens filter ∧ query = ⟨fields, filter⟩ := by
  cases tokens with
  | nil =>
      refine ⟨none, .absent, ?_⟩
      cases fields <;> exact (Option.some.inj read).symm
  | cons token rest =>
      have isFilter : token = .filter := by
        cases fields <;> cases token <;> first | rfl | cases read | exact absurd rfl noComma
      subst isFilter
      rw [read_all?_cons_of_step (step_filter fields)] at read
      rcases derives_condition_of_read_all? read with ⟨condition, derived, same⟩
      exact ⟨some condition, .present derived, same⟩

/-- The loop over the names: each round reads one name, and goes on exactly when a comma follows. -/
theorem derives_names_of_read_all? {earlier : List String} {tokens : List Token}
    {query : WrittenQuery} (read : (afterComma earlier).readAll? tokens = some query) :
    ∃ front back names filter, tokens = front ++ back ∧ DerivesNames front names ∧
      DerivesFilter back filter ∧ query = ⟨.named (earlier ++ names), filter⟩ := by
  match tokens with
  | .identifier name :: rest =>
      have later : (afterFields (.named (earlier ++ [name]))).readAll? rest = some query := read
      by_cases comma : rest.head? = some .comma
      · rcases List.head?_eq_some_iff.1 comma with ⟨suffix, rfl⟩
        have round : (afterComma (earlier ++ [name])).readAll? suffix = some query := later
        obtain ⟨front, back, names, filter, split, list, condition, same⟩ :=
          derives_names_of_read_all? round
        refine ⟨.identifier name :: .comma :: front, back, name :: names, filter, ?_,
          .more name list, condition, ?_⟩
        · rw [split]
          rfl
        · rw [same, List.append_assoc, List.singleton_append]
      · rcases derives_filter_of_read_all? later comma with ⟨filter, condition, same⟩
        exact ⟨[.identifier name], rest, [name], filter, rfl, .last name, condition, same⟩
termination_by tokens.length

theorem derives_query_of_read_all? {tokens : List Token} {query : WrittenQuery}
    (read : beforeProject.readAll? tokens = some query) : DerivesQuery tokens query := by
  match tokens with
  | .project :: .star :: rest =>
      have later : (afterFields .wildcard).readAll? rest = some query := read
      have noComma : rest.head? ≠ some .comma := by
        intro comma
        rcases List.head?_eq_some_iff.1 comma with ⟨suffix, rfl⟩
        cases read
      rcases derives_filter_of_read_all? later noComma with ⟨filter, condition, same⟩
      rw [same]
      exact .query .wildcard condition
  | .project :: .identifier name :: rest =>
      have later : (afterComma []).readAll? (.identifier name :: rest) = some query := read
      obtain ⟨front, back, names, filter, split, list, condition, same⟩ :=
        derives_names_of_read_all? later
      rw [same, split]
      exact .query (.named list) condition

/-- Derivations and the automaton give the same queries. The grammar is stated by derivations, and
the parser runs the automaton. -/
theorem read_all?_eq_some_iff {tokens : List Token} {query : WrittenQuery} :
    beforeProject.readAll? tokens = some query ↔ DerivesQuery tokens query :=
  ⟨derives_query_of_read_all?, read_all?_of_derives_query⟩

def shortestEnding : Progress → List Token
  | beforeProject => [.project, .star]
  | beforeFields => [.star]
  | afterComma _ => [.identifier "a"]
  | beforeConditionField _ => [.identifier "a", .comparator .equal, .string ""]
  | beforeComparator _ _ => [.comparator .equal, .string ""]
  | beforeConstant _ _ _ => [.string ""]
  | _ => []

/-- No state is a dead end: from each of them some tokens lead to the end of a query. So a token
that the automaton takes is one that a query may have there. -/
theorem isSome_read_all?_shortest_ending (progress : Progress) :
    (progress.readAll? progress.shortestEnding).isSome := by
  cases progress <;> rfl

end Progress

/-- A token list spells at most one query, because the automaton that reads it is a function. -/
theorem DerivesQuery.unique {tokens : List Token} {query other : WrittenQuery}
    (derived : DerivesQuery tokens query) (again : DerivesQuery tokens other) : query = other :=
  Option.some.inj <|
    (Progress.read_all?_of_derives_query derived).symm.trans
      (Progress.read_all?_of_derives_query again)

end TableQuery
