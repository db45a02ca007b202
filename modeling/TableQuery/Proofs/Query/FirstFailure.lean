import TableQuery.Proofs.Query.Acceptance

/-!
Where a text stops being the beginning of a query. A sequence of terminals is viable if it can be
continued to a query. The parser fails at the first terminal that is not viable after the ones
before it, or at the first piece that is no token if that comes earlier, and it names exactly the
symbols that would have been viable there.
-/

namespace TableQuery

/-- A token, or `none` for the end of the text. -/
abbrev Terminal := Option Token

namespace Terminal

def symbol : Terminal → Symbol
  | some token => token.symbol
  | none => .endOfInput

def text : Terminal → String
  | some token => token.text
  | none => Symbol.endOfInput.text

def outcome : Terminal → Lexer.Outcome
  | some token => .token token
  | none => .endOfInput

theorem eq_of_outcome {terminal other : Terminal} (same : terminal.outcome = other.outcome) :
    terminal = other := by
  cases terminal <;> cases other <;> cases same <;> rfl

theorem outcome_ne_failure (terminal : Terminal) (fault : LexicalFault) :
    terminal.outcome ≠ .failure fault := by
  intro same
  cases terminal <;> cases same

end Terminal

def Sentence (terminals : List Terminal) : Prop :=
  ∃ tokens query, DerivesQuery tokens query ∧ terminals = tokens.map some ++ [none]

/-- What can be continued to a sentence, or is one. An error is leftmost if everything before it is
viable and nothing longer is. -/
def Viable (terminals : List Terminal) : Prop := ∃ suffix, Sentence (terminals ++ suffix)

theorem split_of_sentence {tokens all : List Token} {terminals : List Terminal}
    (same : tokens.map some ++ terminals = all.map some ++ [none]) :
    ∃ rest, all = tokens ++ rest ∧ terminals = rest.map some ++ [none] := by
  induction tokens generalizing all with
  | nil => exact ⟨all, rfl, same⟩
  | cons token tokens induction =>
      cases all with
      | nil => simp at same
      | cons first others =>
          simp only [List.map_cons, List.cons_append, List.cons.injEq, Option.some.injEq] at same
          rcases induction same.2 with ⟨rest, split, ending⟩
          exact ⟨rest, by rw [same.1, split, List.cons_append], ending⟩

theorem sentence_map_append_iff (tokens rest : List Token) :
    Sentence (tokens.map some ++ (rest.map some ++ [none])) ↔
      (Progress.beforeProject.readAll? (tokens ++ rest)).isSome := by
  rw [Option.isSome_iff_exists]
  constructor
  · rintro ⟨all, query, derived, same⟩
    rw [← List.append_assoc, ← List.map_append] at same
    rcases split_of_sentence same with ⟨others, split, ending⟩
    have noOthers : others = [] := by
      cases others with
      | nil => rfl
      | cons token others => simp at ending
    rw [noOthers, List.append_nil] at split
    exact ⟨query, split ▸ Progress.read_all?_of_derives_query derived⟩
  · rintro ⟨query, read⟩
    refine ⟨tokens ++ rest, query, Progress.derives_query_of_read_all? read, ?_⟩
    rw [List.map_append, List.append_assoc]

/-- The tokens that may begin a query are those that the automaton takes. This needs that it has no
dead ends, for it may not take tokens that lead nowhere. -/
theorem viable_map_iff {tokens : List Token} :
    Viable (tokens.map some) ↔ (Progress.beforeProject.advance tokens).isSome := by
  constructor
  · rintro ⟨suffix, all, query, derived, same⟩
    rcases split_of_sentence same with ⟨rest, split, -⟩
    have read := Progress.read_all?_of_derives_query derived
    rw [split, Progress.readAll?, Progress.advance_append] at read
    cases taken : Progress.beforeProject.advance tokens with
    | none => simp [taken] at read
    | some reached => rfl
  · intro taken
    rcases Option.isSome_iff_exists.1 taken with ⟨reached, taken⟩
    refine ⟨reached.shortestEnding.map some ++ [none], (sentence_map_append_iff ..).2 ?_⟩
    rw [Progress.read_all?_append taken]
    exact Progress.isSome_read_all?_shortest_ending reached

theorem viable_append_iff {tokens : List Token} {reached : Progress}
    (taken : Progress.beforeProject.advance tokens = some reached) (terminal : Terminal) :
    Viable (tokens.map some ++ [terminal]) ↔ terminal.symbol ∈ reached.expected := by
  cases terminal with
  | some token =>
      have extended : Viable (tokens.map some ++ [some token]) ↔
          (Progress.beforeProject.advance (tokens ++ [token])).isSome := by
        rw [← viable_map_iff, List.map_append, List.map_singleton]
      have last : reached.advance [token] = reached.step token := by simp [Progress.advance]
      rw [extended, Progress.advance_append, taken, Option.bind_some, last]
      exact reached.isSome_step_iff token
  | none =>
      have complete : Sentence (tokens.map some ++ [none]) ↔ reached.finish?.isSome := by
        have whole := sentence_map_append_iff tokens []
        rwa [Progress.read_all?_append taken] at whole
      rw [Terminal.symbol, ← reached.isSome_finish_iff, ← complete]
      constructor
      · rintro ⟨suffix, all, query, derived, same⟩
        rw [List.append_assoc] at same
        rcases split_of_sentence same with ⟨rest, split, ending⟩
        cases rest with
        | nil => exact ⟨all, query, derived, by rw [split, List.append_nil]⟩
        | cons token rest => simp at ending
      · intro sentence
        exact ⟨[], by rwa [List.append_nil]⟩

theorem Progress.nodup_expected (progress : Progress) :
    (progress.expected.map Symbol.text).Nodup := by
  cases progress <;>
    simp [expected, wanted, Symbol.text, quoted, Comparator.spelling]

theorem exists_symbol_eq (symbol : Symbol) : ∃ terminal : Terminal, terminal.symbol = symbol := by
  cases symbol with
  | project => exact ⟨some .project, rfl⟩
  | filter => exact ⟨some .filter, rfl⟩
  | star => exact ⟨some .star, rfl⟩
  | comma => exact ⟨some .comma, rfl⟩
  | comparator sign => exact ⟨some (.comparator sign), rfl⟩
  | identifier => exact ⟨some (.identifier ""), rfl⟩
  | number => exact ⟨some (.number ""), rfl⟩
  | string => exact ⟨some (.string ""), rfl⟩
  | endOfInput => exact ⟨none, rfl⟩

/-- The lexer fails here, or it yields a terminal that may not follow these tokens. -/
def Refused (tokens : List Token) (lexer : Lexer) : Prop :=
  (∃ terminal : Terminal, lexer.outcome = terminal.outcome ∧
    ¬Viable (tokens.map some ++ [terminal])) ∨
  ∃ fault, lexer.outcome = .failure fault

/-- The lexer yields these tokens up to here, they may begin a query, and what comes next is
refused. -/
structure StopsAt (text : String) (tokens : List Token) (lexer : Lexer) : Prop where
  read : (Lexer.start text.toList).Reads tokens lexer
  viable : Viable (tokens.map some)
  refused : Refused tokens lexer

theorem not_refused_of_viable {tokens rest : List Token} {lexer : Lexer} {token : Token}
    (viable : Viable ((tokens ++ token :: rest).map some)) (next : lexer.outcome = .token token) :
    ¬Refused tokens lexer := by
  rintro (⟨terminal, same, refused⟩ | ⟨fault, same⟩)
  · have isToken : some token = terminal := Terminal.eq_of_outcome (next.symm.trans same)
    rcases viable with ⟨suffix, sentence⟩
    apply refused
    refine ⟨rest.map some ++ suffix, ?_⟩
    rw [← isToken]
    simpa using sentence
  · rw [next] at same
    cases same

/-- A text stops being the beginning of a query at one place at most. Of two such places the further
one would have passed the token that is refused at the other. -/
theorem StopsAt.unique {text : String} {tokens others : List Token} {lexer other : Lexer}
    (first : StopsAt text tokens lexer) (second : StopsAt text others other) :
    others = tokens ∧ other = lexer := by
  rcases first.read.cases_of_reads second.read with same | shorter | longer
  · exact ⟨same.1.symm, same.2.symm⟩
  · rcases shorter with ⟨token, rest, split, next⟩
    exact (not_refused_of_viable (split ▸ second.viable) next first.refused).elim
  · rcases longer with ⟨token, rest, split, next⟩
    exact (not_refused_of_viable (split ▸ first.viable) next second.refused).elim

/-- What an error says of the place after these tokens: its position, and there either the terminal
that was refused with exactly the symbols that may follow, or the lexical fault. -/
structure Reports (error : SyntaxError) (tokens : List Token) (lexer : Lexer) : Prop where
  position : error.position = lexer.nextPosition
  terminal : ∀ terminal : Terminal, lexer.outcome = terminal.outcome →
    error.fault.foundText = terminal.text ∧ (error.fault.expected.map Symbol.text).Nodup ∧
      ∀ symbol, symbol ∈ error.fault.expected ↔
        ∃ follower : Terminal, follower.symbol = symbol ∧
          Viable (tokens.map some ++ [follower])
  failure : ∀ fault, lexer.outcome = .failure fault →
    error.fault = .lexical fault ∧ error.fault.expected = []

theorem mem_expected_iff {tokens : List Token} {reached : Progress}
    (taken : Progress.beforeProject.advance tokens = some reached) (symbol : Symbol) :
    symbol ∈ reached.expected ↔
      ∃ follower : Terminal, follower.symbol = symbol ∧ Viable (tokens.map some ++ [follower]) := by
  constructor
  · intro member
    rcases exists_symbol_eq symbol with ⟨follower, same⟩
    exact ⟨follower, same, (viable_append_iff taken follower).2 (same ▸ member)⟩
  · rintro ⟨follower, rfl, viable⟩
    exact (viable_append_iff taken follower).1 viable

theorem reports_of_terminal {tokens : List Token} {reached : Progress} {lexer : Lexer}
    (terminal : Terminal) (taken : Progress.beforeProject.advance tokens = some reached)
    (found : lexer.outcome = terminal.outcome) (unwanted : terminal.symbol ∉ reached.expected)
    (source : List Char) :
    Refused tokens lexer ∧
      Reports ⟨source, lexer.nextPosition, .unexpected reached.expected terminal⟩ tokens lexer := by
  have refused : ¬Viable (tokens.map some ++ [terminal]) := by
    rw [viable_append_iff taken]
    exact unwanted
  refine ⟨.inl ⟨terminal, found, refused⟩, rfl, ?_, ?_⟩
  · intro other same
    refine ⟨?_, reached.nodup_expected, mem_expected_iff taken⟩
    rw [← Terminal.eq_of_outcome (found.symm.trans same)]
    cases terminal <;> rfl
  · intro fault same
    exact absurd (found.symm.trans same) (terminal.outcome_ne_failure fault)

/-- A verdict that is an error refuses what comes next, and reports on it. -/
theorem reports_of_verdict {tokens : List Token} {reached : Progress} {lexer : Lexer}
    {failure : Failure} (taken : Progress.beforeProject.advance tokens = some reached)
    (stops : reached.StopsBefore lexer) (answer : reached.verdict lexer = .error failure)
    (source : List Char) :
    Refused tokens lexer ∧ Reports (Parser.syntaxError source failure) tokens lexer := by
  unfold Progress.verdict at answer
  cases found : lexer.outcome with
  | failure fault =>
      rw [found] at answer
      cases answer
      refine ⟨.inr ⟨fault, found⟩, rfl, ?_, ?_⟩
      · intro terminal same
        exact absurd (same.symm.trans found) (terminal.outcome_ne_failure fault)
      · intro other same
        cases found.symm.trans same
        exact ⟨rfl, rfl⟩
  | token token =>
      rw [found] at answer
      cases answer
      have unwanted : token.symbol ∉ reached.expected := by
        rw [← reached.isSome_step_iff, stops token found]
        simp
      exact reports_of_terminal (some token) taken found unwanted source
  | endOfInput =>
      cases ended : reached.finish? with
      | some query => simp [found, ended] at answer
      | none =>
          simp only [found, ended] at answer
          cases answer
          have unwanted : Symbol.endOfInput ∉ reached.expected := by
            rw [← reached.isSome_finish_iff, ended]
            simp
          exact reports_of_terminal none taken found unwanted source

/-- Errors are leftmost and exact: a rejected text stops being the beginning of a query at exactly
one place, and the error reports on this place, whatever stands after it. -/
theorem reports_of_parse_error {text : String} {error : SyntaxError}
    (rejected : parse text = .error error) :
    ∃ tokens lexer, StopsAt text tokens lexer ∧
      (∀ others other, StopsAt text others other → others = tokens ∧ other = lexer) ∧
      Reports error tokens lexer := by
  rcases exists_parse_stop text with ⟨tokens, lexer, reached, read, taken, stops, answer⟩
  rcases exists_of_mapError_eq_error (answer.symm.trans rejected) with ⟨failure, verdict, same⟩
  rcases reports_of_verdict taken stops verdict text.toList with ⟨refused, reports⟩
  have viable : Viable (tokens.map some) := viable_map_iff.2 (by rw [taken]; rfl)
  have stop : StopsAt text tokens lexer := ⟨read, viable, refused⟩
  exact ⟨tokens, lexer, stop, fun _ _ => stop.unique, same ▸ reports⟩

/-- The character that is no token stands after a comma that may not follow, and is not reported. -/
theorem reports_of_parse_error_comma :
    parse "PROJECT , #" = .error ⟨"PROJECT , #".toList, ⟨8, 1, 9⟩,
      .unexpected [.star, .identifier] (some .comma)⟩ ∧
    ∃ tokens lexer, StopsAt "PROJECT , #" tokens lexer ∧
      (∀ others other, StopsAt "PROJECT , #" others other → others = tokens ∧ other = lexer) ∧
      Reports ⟨"PROJECT , #".toList, ⟨8, 1, 9⟩,
        .unexpected [.star, .identifier] (some .comma)⟩ tokens lexer := by
  have rejected : parse "PROJECT , #" = .error ⟨"PROJECT , #".toList, ⟨8, 1, 9⟩,
      .unexpected [.star, .identifier] (some .comma)⟩ :=
    eq_error_of_fault? (by decide +kernel)
  exact ⟨rejected, reports_of_parse_error rejected⟩

end TableQuery
