import TableQuery.Query.Parser
import TableQuery.Proofs.Outcome
import TableQuery.Proofs.Query.Derivation

/-!
What the parser answers, in terms of the lexer and the grammar alone. Reading passes tokens as long
as the grammar takes them; where it stops, the answer is determined by the state of the grammar and
the outcome of the lexer there. A text is accepted exactly when its tokens derive the query.
-/

namespace TableQuery

/-- Reading again and again passes these tokens and leaves the lexer in the last state. -/
inductive Lexer.Reads : Lexer → List Token → Lexer → Prop
  | stay (lexer : Lexer) : Reads lexer [] lexer
  | pass {lexer after last : Lexer} {token : Token} {tokens : List Token}
      (read : lexer.next = (.token token, after)) (later : Reads after tokens last) :
      Reads lexer (token :: tokens) last

namespace Lexer

/-- What the lexer gives to the grammar when it is asked for the next token. -/
def outcome (lexer : Lexer) : Outcome := lexer.next.1

def nextPosition (lexer : Lexer) : Position := lexer.next.2.position

/-- Of two readings from one state the shorter is the beginning of the longer. -/
theorem Reads.cases_of_reads {lexer last other : Lexer} {tokens others : List Token}
    (read : lexer.Reads tokens last) (again : lexer.Reads others other) :
    (tokens = others ∧ last = other) ∨
      (∃ token rest, others = tokens ++ token :: rest ∧ last.outcome = .token token) ∨
      (∃ token rest, tokens = others ++ token :: rest ∧ other.outcome = .token token) := by
  induction read generalizing others with
  | stay lexer =>
      cases again with
      | stay => exact .inl ⟨rfl, rfl⟩
      | pass read later => exact .inr (.inl ⟨_, _, rfl, by rw [outcome, read]⟩)
  | pass read later induction =>
      cases again with
      | stay => exact .inr (.inr ⟨_, _, rfl, by rw [outcome, read]⟩)
      | pass readAgain laterAgain =>
          rw [read] at readAgain
          cases readAgain
          rcases induction laterAgain with same | shorter | longer
          · exact .inl ⟨by rw [same.1], same.2⟩
          · rcases shorter with ⟨token, rest, split, next⟩
            exact .inr (.inl ⟨token, rest, by rw [split]; rfl, next⟩)
          · rcases longer with ⟨token, rest, split, next⟩
            exact .inr (.inr ⟨token, rest, by rw [split]; rfl, next⟩)

end Lexer

namespace TokenStream

theorem of_lexer_token {lexer after : Lexer} {token : Token}
    (read : lexer.next = (.token token, after)) :
    ofLexer lexer = .cons token after.position (ofLexer after) := by
  rw [ofLexer]
  split <;> simp_all

theorem of_lexer_end_of_input {lexer : Lexer} (ended : lexer.outcome = .endOfInput) :
    ofLexer lexer = .endOfInput lexer.nextPosition := by
  rw [ofLexer]
  split <;> simp_all [Lexer.outcome, Lexer.nextPosition]

theorem of_lexer_failure {lexer : Lexer} {fault : LexicalFault}
    (failed : lexer.outcome = .failure fault) :
    ofLexer lexer = .failure ⟨fault, lexer.nextPosition⟩ := by
  rw [ofLexer]
  split <;> simp_all [Lexer.outcome, Lexer.nextPosition]

end TokenStream

namespace Progress

/-- The answer when reading stops in a state of the grammar, before what the lexer gives next. -/
def verdict (progress : Progress) (lexer : Lexer) : Except Failure WrittenQuery :=
  match lexer.outcome with
  | .failure fault => .error ⟨lexer.nextPosition, .lexical fault⟩
  | .token token =>
      .error ⟨lexer.nextPosition, .unexpected progress.expected (some token)⟩
  | .endOfInput =>
      match progress.finish? with
      | some query => .ok query
      | none => .error ⟨lexer.nextPosition, .unexpected progress.expected none⟩

def StopsBefore (progress : Progress) (lexer : Lexer) : Prop :=
  ∀ token, lexer.outcome = .token token → progress.step token = none

@[simp] theorem note_symbols_nil (fresh : List Symbol) : noteSymbols [] fresh = fresh := by
  simp [noteSymbols]

theorem outcome_run_of_step {progress next : Progress} {token : Token}
    (taken : progress.step token = some next) (noted : List Symbol) (position : Position)
    (rest : TokenStream) :
    (progress.run noted (.cons token position rest)).outcome = (next.run [] rest).outcome := by
  conv => lhs; rw [run.eq_def]
  cases rest <;> simp only [taken]
  rfl

theorem outcome_run_of_stops_before {progress : Progress} {lexer : Lexer}
    (stops : progress.StopsBefore lexer) :
    (progress.run [] (TokenStream.ofLexer lexer)).outcome = progress.verdict lexer := by
  unfold verdict
  cases found : lexer.outcome with
  | token token =>
      have read : lexer.next = (.token token, lexer.next.2) := Prod.ext found rfl
      rw [TokenStream.of_lexer_token read]
      simp only [run, stops token found, note_symbols_nil]
      rfl
  | endOfInput =>
      rw [TokenStream.of_lexer_end_of_input found]
      cases ended : progress.finish? <;> simp only [run, ended, note_symbols_nil]
  | failure fault =>
      rw [TokenStream.of_lexer_failure found]
      rfl

/-- Tokens that the grammar takes are passed, and what was noted before them is forgotten. So an
error only wants what could stand where reading stopped. -/
theorem outcome_run_of_reads {lexer last : Lexer} {tokens : List Token}
    (read : lexer.Reads tokens last) {progress reached : Progress}
    (taken : progress.advance tokens = some reached) :
    (progress.run [] (TokenStream.ofLexer lexer)).outcome =
      (reached.run [] (TokenStream.ofLexer last)).outcome := by
  induction read generalizing progress with
  | stay => rw [Option.some.inj taken]
  | pass read _ induction =>
      rcases Option.bind_eq_some_iff.1 taken with ⟨next, step, taken⟩
      rw [TokenStream.of_lexer_token read, outcome_run_of_step step]
      exact induction taken

theorem exists_stop (progress : Progress) (lexer : Lexer) :
    ∃ tokens last reached, lexer.Reads tokens last ∧ progress.advance tokens = some reached ∧
      reached.StopsBefore last := by
  by_cases stops : progress.StopsBefore lexer
  · exact ⟨[], lexer, progress, .stay lexer, rfl, stops⟩
  · simp only [StopsBefore, Classical.not_forall] at stops
    rcases stops with ⟨token, found, taken⟩
    rcases Option.ne_none_iff_exists'.1 taken with ⟨next, step⟩
    have read : lexer.next = (.token token, lexer.next.2) := Prod.ext found rfl
    have shorter := Lexer.length_rest_lt_of_next read
    rcases exists_stop next lexer.next.2 with ⟨tokens, last, reached, later, advanced, stop⟩
    refine ⟨token :: tokens, last, reached, .pass read later, ?_, stop⟩
    rw [advance, step, Option.bind_some, advanced]
termination_by lexer.rest.length

end Progress

/-- A parser is made with its first token read ahead. One that cannot read it answers as a run would
that meets the failure there, so the two need not be told apart. -/
theorem parse_eq_run (text : String) :
    parse text =
      ((Progress.beforeProject.run [] (.ofSource text.toList)).outcome.mapError
        (Parser.syntaxError text.toList)) := by
  unfold parse
  cases TokenStream.ofSource text.toList <;> rfl

theorem exists_parse_stop (text : String) :
    ∃ tokens last reached, (Lexer.start text.toList).Reads tokens last ∧
      Progress.beforeProject.advance tokens = some reached ∧ reached.StopsBefore last ∧
      parse text = (reached.verdict last).mapError (Parser.syntaxError text.toList) := by
  obtain ⟨tokens, last, reached, read, taken, stops⟩ :=
    Progress.exists_stop .beforeProject (.start text.toList)
  refine ⟨tokens, last, reached, read, taken, stops, ?_⟩
  rw [parse_eq_run, TokenStream.ofSource, Progress.outcome_run_of_reads read taken,
    Progress.outcome_run_of_stops_before stops]

/-- The tokens that are derived as the query are all that stands in the text. -/
theorem exists_derives_query_of_parse {text : String} {query : WrittenQuery}
    (parsed : parse text = .ok query) :
    ∃ tokens last, (Lexer.start text.toList).Reads tokens last ∧ last.outcome = .endOfInput ∧
      DerivesQuery tokens query := by
  rcases exists_parse_stop text with ⟨tokens, last, reached, read, taken, -, answer⟩
  have verdict := eq_ok_of_mapError (answer.symm.trans parsed)
  unfold Progress.verdict at verdict
  cases found : last.outcome with
  | token token =>
      rw [found] at verdict
      cases verdict
  | failure fault =>
      rw [found] at verdict
      cases verdict
  | endOfInput =>
      rw [found] at verdict
      cases ended : reached.finish? with
      | none =>
          simp only [ended] at verdict
          cases verdict
      | some other =>
          simp only [ended] at verdict
          cases verdict
          refine ⟨tokens, last, read, found, Progress.read_all?_eq_some_iff.1 ?_⟩
          rw [Progress.readAll?, taken, Option.bind_some, ended]

theorem parse_of_derives_query {text : String} {tokens : List Token} {last : Lexer}
    {query : WrittenQuery} (read : (Lexer.start text.toList).Reads tokens last)
    (ended : last.outcome = .endOfInput) (derived : DerivesQuery tokens query) :
    parse text = .ok query := by
  obtain ⟨reached, taken, finished⟩ :=
    Option.bind_eq_some_iff.1 (Progress.read_all?_of_derives_query derived)
  rw [parse_eq_run, TokenStream.ofSource, Progress.outcome_run_of_reads read taken,
    TokenStream.of_lexer_end_of_input ended, Progress.run, finished]
  rfl

/-- The parser is the grammar: a text is read as a query exactly when the lexer reads the whole text
into tokens that are derived as this query. No token list is derived as two queries. -/
theorem parse_eq_ok_iff_derives_query (text : String) :
    (∀ query, parse text = .ok query ↔
      ∃ tokens last, (Lexer.start text.toList).Reads tokens last ∧ last.outcome = .endOfInput ∧
        DerivesQuery tokens query) ∧
    (∀ tokens query other, DerivesQuery tokens query → DerivesQuery tokens other →
      query = other) := by
  refine ⟨fun query => ⟨exists_derives_query_of_parse, ?_⟩, fun _ _ _ => DerivesQuery.unique⟩
  rintro ⟨tokens, last, read, ended, derived⟩
  exact parse_of_derives_query read ended derived

end TableQuery
