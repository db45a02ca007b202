import TableQuery.Proofs.Query.ByteParser
import TableQuery.Proofs.Query.RepeatedCalls

/-!
The procedures of the parser on bytes do what the automaton does. A procedure is followed through
the rest of the query: it is given what comes after it, and the state of the automaton in which this
goes on. The symbols that have been tried in vain since the last token come with the state, because
the procedures note them one by one and the automaton all at once. As the automaton has an answer
for every stream of tokens, no call on bytes breaks.
-/

namespace TableQuery

namespace TokenStream

def symbol? : TokenStream → Option Symbol
  | endOfInput _ => some .endOfInput
  | failure _ => none
  | cons token _ _ => some token.symbol

theorem exists_cons_of_symbol? {stream : TokenStream} {symbol : Symbol}
    (begins : stream.symbol? = some symbol) (other : symbol ≠ .endOfInput) :
    ∃ token place rest, stream = .cons token place rest ∧ token.symbol = symbol := by
  cases stream with
  | endOfInput place =>
      cases begins
      exact absurd rfl other
  | failure error => cases begins
  | cons token place rest => exact ⟨token, place, rest, rfl, Option.some.inj begins⟩

theorem exists_end_of_input_of_symbol? {stream : TokenStream}
    (begins : stream.symbol? = some .endOfInput) : ∃ place, stream = .endOfInput place := by
  cases stream with
  | endOfInput place => exact ⟨place, rfl⟩
  | failure error => cases begins
  | cons token place rest => cases token <;> cases begins

/-- A lexer that reads no token has not moved on in the stream. It may have passed white space,
which the stream does not show. -/
theorem of_lexer_next {lexer : Lexer} (stopped : ∀ token, lexer.outcome ≠ .token token) :
    ofLexer lexer.next.2 = ofLexer lexer := by
  have again := Lexer.next_next stopped
  have sameOutcome : lexer.next.2.outcome = lexer.outcome := congrArg Prod.fst again
  have samePlace : lexer.next.2.nextPosition = lexer.nextPosition := by
    rw [Lexer.nextPosition, again, Lexer.nextPosition]
  cases found : lexer.outcome with
  | token token => exact absurd found (stopped token)
  | endOfInput =>
      rw [of_lexer_end_of_input found, of_lexer_end_of_input (sameOutcome.trans found), samePlace]
  | failure fault =>
      rw [of_lexer_failure found, of_lexer_failure (sameOutcome.trans found), samePlace]

theorem of_lexer_of_error {lexer : Lexer} {error : LexicalError}
    (failed : lexer.answer = .error error) :
    ofLexer lexer = .failure error ∧ ofLexer lexer.next.2 = .failure error := by
  have found := Lexer.outcome_of_error failed
  have stream : ofLexer lexer = .failure error := by
    rw [of_lexer_failure found, ← Lexer.position_of_error failed]
  have stopped : ∀ token, lexer.outcome ≠ .token token := by
    rw [found]
    rintro token ⟨⟩
  exact ⟨stream, (of_lexer_next stopped).trans stream⟩

theorem length_tokens_of_lexer (lexer : Lexer) :
    (ofLexer lexer).tokens.length ≤ lexer.rest.length := by
  cases found : lexer.outcome with
  | token token =>
      have read : lexer.next = (.token token, lexer.next.2) := Prod.ext found rfl
      have shorter := Lexer.length_rest_lt_of_next read
      have later := length_tokens_of_lexer lexer.next.2
      rw [of_lexer_token read, tokens, List.length_cons]
      omega
  | endOfInput =>
      rw [of_lexer_end_of_input found]
      exact Nat.zero_le _
  | failure fault =>
      rw [of_lexer_failure found]
      exact Nat.zero_le _
termination_by lexer.rest.length

end TokenStream

namespace ByteParser

/-- A parser on bytes in place of one on a stream of tokens: the stream is the current token and
those that the lexer has still to read. -/
inductive StandsFor : ByteParser → Parser → Prop
  | token (lexer : Lexer) (token : Token) (place : Position) (noted : List Symbol)
      (counts : place.FromOne) :
      StandsFor ⟨.ofLexer lexer, some token, place, noted⟩
        ⟨lexer.source, .cons token place (.ofLexer lexer), noted⟩
  | ended (lexer : Lexer) (place : Position) (noted : List Symbol) (counts : place.FromOne)
      (ended : TokenStream.ofLexer lexer = .endOfInput place) :
      StandsFor ⟨.ofLexer lexer, none, place, noted⟩ ⟨lexer.source, .endOfInput place, noted⟩

theorem stands_for_of_answer {lexer : Lexer} {terminal : Terminal}
    (answered : lexer.answer = .ok terminal) :
    StandsFor ⟨.ofLexer lexer.next.2, terminal, lexer.nextPosition, []⟩
      ⟨lexer.source, .ofLexer lexer, []⟩ := by
  have found := Lexer.outcome_of_ok answered
  have counts : lexer.nextPosition.FromOne := Position.from_one_after _
  rw [← lexer.source_next]
  cases terminal with
  | some token =>
      have read : lexer.next = (.token token, lexer.next.2) := Prod.ext found rfl
      rw [TokenStream.of_lexer_token read]
      exact .token lexer.next.2 token _ [] counts
  | none =>
      have stopped : ∀ token, lexer.outcome ≠ .token token := by
        rw [found]
        rintro token ⟨⟩
      have stream := TokenStream.of_lexer_end_of_input found
      rw [stream]
      exact .ended lexer.next.2 _ [] counts ((TokenStream.of_lexer_next stopped).trans stream)

namespace StandsFor

variable {parser : ByteParser} {other : Parser}

theorem readable (stands : parser.StandsFor other) (error : LexicalError) :
    other.remaining ≠ .failure error := by
  intro same
  cases stands <;> cases same

theorem source (stands : parser.StandsFor other) : parser.lexer.source = other.source := by
  cases stands <;> rfl

theorem in_range (stands : parser.StandsFor other) : parser.lexer.InRange := by
  cases stands <;> exact ByteLexer.in_range_of_lexer _

theorem noted (stands : parser.StandsFor other) : parser.noted = other.noted := by
  cases stands <;> rfl

theorem counts (stands : parser.StandsFor other) : parser.currentStart.FromOne := by
  cases stands <;> assumption

theorem symbol? (stands : parser.StandsFor other) :
    other.remaining.symbol? = some parser.current.symbol := by
  cases stands <;> rfl

theorem note (stands : parser.StandsFor other) (noted : List Symbol) :
    StandsFor { parser with noted := noted } { other with noted := noted } := by
  cases stands with
  | token lexer token place _ counts => exact .token lexer token place noted counts
  | ended lexer place _ counts ended => exact .ended lexer place noted counts ended

/-- There is at most one token more to come than the text has characters. -/
theorem length_tokens_le (stands : parser.StandsFor other) :
    other.remaining.tokens.length ≤ parser.lexer.source.length + 1 := by
  cases stands with
  | token lexer token place noted counts =>
      have bound := TokenStream.length_tokens_of_lexer lexer
      have inside : lexer.rest.length ≤ lexer.source.length := by
        rw [Lexer.source, List.length_append]
        exact Nat.le_add_left _ _
      exact Nat.succ_le_succ (bound.trans inside)
  | ended => exact Nat.zero_le _

end StandsFor

end ByteParser

theorem Progress.run_of_step {progress later : Progress} {token : Token} {rest : TokenStream}
    (taken : progress.step token = some later) (readable : ∀ error, rest ≠ .failure error)
    (noted : List Symbol) (place : Position) :
    progress.run noted (.cons token place rest) = later.run [] rest := by
  cases rest with
  | failure error => exact absurd rfl (readable error)
  | endOfInput ending => simp only [run, taken]
  | cons following position suffix =>
      conv_lhs => rw [run.eq_def]
      simp only [taken]

theorem note_symbols_append {tried : List Symbol} {symbol : Symbol} (fresh : symbol ∉ tried)
    (noted : List Symbol) :
    noteSymbols (noteSymbols noted tried) [symbol] = noteSymbols noted (tried ++ [symbol]) := by
  simp [noteSymbols, List.filter_append, List.filter_cons, fresh]

namespace Reading

/-- The procedure does what the automaton does from a state in which some symbols have been tried in
vain already. -/
def Follows (reading : Reading WrittenQuery) (progress : Progress) (tried : List Symbol)
    (stream : TokenStream) : Prop :=
  ∀ (parser : ByteParser) (source : List Char) (noted : List Symbol),
    (∀ symbol ∈ tried, stream.symbol? ≠ some symbol) →
    parser.StandsFor ⟨source, stream, noteSymbols noted tried⟩ →
    ∃ after, reading.runOn parser =
        some ((progress.run noted stream).outcome.mapError fun failure =>
          (Parser.syntaxError source failure).diagnosis, after) ∧
      after.StandsFor ⟨source, (progress.run noted stream).remaining,
        (progress.run noted stream).noted⟩

section Steps

variable {progress : Progress} {tried : List Symbol} {stream : TokenStream} {symbol : Symbol}

theorem not_mem_of_expected {others : List Symbol}
    (expected : progress.expected = tried ++ symbol :: others) : symbol ∉ tried := by
  have distinct := progress.nodup_expected_symbols
  rw [expected] at distinct
  intro member
  exact List.disjoint_of_nodup_append distinct member (List.mem_cons_self ..)

theorem follows_note {next : Unit → Reading WrittenQuery} (fresh : symbol ∉ tried)
    (other : stream.symbol? ≠ some symbol)
    (goesOn : Follows (next ()) progress (tried ++ [symbol]) stream) :
    Follows (note symbol >>= next) progress tried stream := by
  intro parser source noted vain stands
  rw [run_on_bind_ok (run_on_note symbol parser)]
  apply goesOn
  · intro wanted member
    rcases List.mem_append.1 member with before | last
    · exact vain wanted before
    · rw [List.mem_singleton.1 last]
      exact other
  · rw [stands.noted, note_symbols_append fresh]
    exact stands.note _

theorem follows_notes {symbols : List Symbol} {next : Unit → Reading WrittenQuery}
    (fresh : (tried ++ symbols).Nodup) (others : ∀ symbol ∈ symbols, stream.symbol? ≠ some symbol)
    (goesOn : Follows (next ()) progress (tried ++ symbols) stream) :
    Follows (symbols.forM note >>= next) progress tried stream := by
  induction symbols generalizing tried with
  | nil =>
      rw [List.append_nil] at goesOn
      exact goesOn
  | cons symbol symbols induction =>
      have apart : symbol ∉ tried := by
        intro member
        exact List.disjoint_of_nodup_append fresh member (List.mem_cons_self ..)
      obtain ⟨first, rest⟩ := List.forall_mem_cons.1 others
      rw [List.append_cons] at fresh goesOn
      rw [List.forM_eq_forM, List.forM_cons, bind_assoc]
      exact follows_note apart first (induction fresh rest goesOn)

theorem follows_check {next : Bool → Reading WrittenQuery} (fresh : symbol ∉ tried)
    (matched : stream.symbol? = some symbol → Follows (next true) progress tried stream)
    (missed : Follows (next false) progress (tried ++ [symbol]) stream) :
    Follows (check symbol >>= next) progress tried stream := by
  intro parser source noted vain stands
  have begins := stands.symbol?
  by_cases same : parser.current.symbol = symbol
  · rw [run_on_bind_ok (run_on_check_of_eq same)]
    exact matched (begins.trans (congrArg some same)) parser source noted vain stands
  · have other : stream.symbol? ≠ some symbol := by
      intro wanted
      exact same (Option.some.inj (begins.symm.trans wanted))
    have noting : Follows (note symbol >>= fun _ => next false) progress tried stream :=
      follows_note fresh other missed
    rw [run_on_bind_ok (run_on_check_of_ne same)]
    exact noting parser source noted vain stands

theorem follows_advance {token : Token} {place : Position} {rest : TokenStream} {later : Progress}
    {next : Terminal → Reading WrittenQuery} (taken : progress.step token = some later)
    (missed : progress.missed token.symbol = tried)
    (goesOn : Follows (next (some token)) later [] rest) :
    Follows (advance >>= next) progress tried (.cons token place rest) := by
  intro parser source noted _ stands
  cases stands with
  | token lexer _ _ _ counts =>
      have step := run_on_advance lexer (some token) place (noteSymbols noted tried)
      cases answered : lexer.answer with
      | error error =>
          -- The lexer has passed white space, and is in front of the same piece.
          simp only [answered] at step
          obtain ⟨stream, again⟩ := TokenStream.of_lexer_of_error answered
          rw [run_on_bind_error step, stream]
          simp only [Progress.run, taken, missed]
          refine ⟨_, rfl, ?_⟩
          rw [← again, ← lexer.source_next]
          exact .token lexer.next.2 token place _ counts
      | ok terminal =>
          simp only [answered] at step
          have moved := ByteParser.stands_for_of_answer answered
          rw [run_on_bind_ok step, Progress.run_of_step taken moved.readable]
          exact goesOn _ _ [] (List.forall_mem_nil _) moved

theorem follows_advance_ended {place : Position} {written : WrittenQuery}
    (finished : progress.finish? = some written) :
    Follows (advance >>= fun _ => pure written) progress tried (.endOfInput place) := by
  intro parser source noted _ stands
  cases stands with
  | ended lexer _ _ counts ended =>
      have step := run_on_advance lexer none place (noteSymbols noted tried)
      cases answered : lexer.answer with
      | error error =>
          have stream := (TokenStream.of_lexer_of_error answered).1
          rw [ended] at stream
          cases stream
      | ok terminal =>
          have moved := ByteParser.stands_for_of_answer answered
          simp only [answered] at step
          rw [ended] at moved
          rw [run_on_bind_ok step]
          simp only [Progress.run, finished]
          exact ⟨_, rfl, moved⟩

theorem follows_refuse {Result : Type} {next : Result → Reading WrittenQuery}
    (expected : progress.expected = tried) :
    Follows (refuse >>= next) progress tried stream := by
  intro parser source noted vain stands
  rw [run_on_bind_error (run_on_refuse stands.counts)]
  refine ⟨parser, ?_⟩
  cases stands with
  | token lexer token place _ counts =>
      have stopped : progress.step token = none := by
        rw [← Option.not_isSome_iff_eq_none, progress.isSome_step_iff, expected]
        exact fun member => vain _ member rfl
      simp only [Progress.run, stopped, expected]
      exact ⟨rfl, .token lexer token place _ counts⟩
  | ended lexer place _ counts ended =>
      have stopped : progress.finish? = none := by
        rw [← Option.not_isSome_iff_eq_none, progress.isSome_finish_iff, expected]
        exact fun member => vain _ member rfl
      simp only [Progress.run, stopped, expected]
      exact ⟨rfl, .ended lexer place _ counts ended⟩

theorem follows_expect {next : Terminal → Reading WrittenQuery}
    (expected : progress.expected = tried ++ [symbol])
    (matched : stream.symbol? = some symbol → Follows (advance >>= next) progress tried stream) :
    Follows (expect symbol >>= next) progress tried stream := by
  rw [expect, bind_assoc]
  exact follows_check (not_mem_of_expected expected) matched (follows_refuse expected)

theorem follows_end {written : WrittenQuery} (finished : progress.finish? = some written)
    (expected : progress.expected = tried ++ [.endOfInput]) :
    Follows (expect .endOfInput >>= fun _ => pure written) progress tried stream := by
  apply follows_expect expected
  intro begins
  obtain ⟨place, rfl⟩ := TokenStream.exists_end_of_input_of_symbol? begins
  exact follows_advance_ended finished

end Steps

section Grammar

variable {progress : Progress} {tried : List Symbol} {stream : TokenStream} {fields : Fields}
  {field : String}

theorem follows_identifier {next : String → Reading WrittenQuery} {later : String → Progress}
    (expected : progress.expected = tried ++ [.identifier])
    (taken : ∀ name, progress.step (.identifier name) = some (later name))
    (missed : progress.missed .identifier = tried)
    (goesOn : ∀ name place rest, stream = .cons (.identifier name) place rest →
      Follows (next name) (later name) [] rest) :
    Follows (identifier >>= next) progress tried stream := by
  rw [identifier, bind_assoc]
  apply follows_expect expected
  intro begins
  obtain ⟨token, place, rest, rfl, kind⟩ := TokenStream.exists_cons_of_symbol? begins (by decide)
  cases token with
  | identifier name => exact follows_advance (taken name) missed (goesOn name place rest rfl)
  | _ => cases kind

theorem follows_comparator {next : Comparator → Reading WrittenQuery}
    (goesOn : ∀ sign rest, Follows (next sign) (.beforeConstant fields field sign) [] rest) :
    Follows (comparator >>= next) (.beforeComparator fields field) [] stream := by
  -- All five signs are noted together, when the current token is none of them.
  have others (different : ∀ sign, stream.symbol? ≠ some (.comparator sign)) :
      Follows (([Symbol.comparator .equal, .comparator .greaterEqual, .comparator .lessEqual,
          .comparator .greater, .comparator .less].forM note >>= fun _ => refuse) >>= next)
        (.beforeComparator fields field) [] stream := by
    rw [bind_assoc]
    apply follows_notes
    · decide
    · simp [different]
    · exact follows_refuse rfl
  intro parser source noted vain stands
  rw [comparator, bind_assoc, run_on_get_bind]
  cases stands with
  | token lexer token place _ counts =>
      have stands := ByteParser.StandsFor.token lexer token place (noteSymbols noted []) counts
      cases token with
      | comparator sign =>
          have first : (Progress.beforeComparator fields field).missed (.comparator sign) = [] := by
            cases sign <;> rfl
          have passes : Follows ((advance >>= fun _ => pure sign) >>= next)
              (.beforeComparator fields field) []
              (.cons (.comparator sign) place (.ofLexer lexer)) := by
            rw [bind_assoc]
            exact follows_advance rfl first (goesOn sign _)
          exact passes _ _ _ vain stands
      | _ => exact others (by rintro sign ⟨⟩) _ _ _ vain stands
  | ended lexer place _ counts ended =>
      exact others (by rintro sign ⟨⟩) _ _ _ vain (.ended lexer place _ counts ended)

theorem follows_constant {sign : Comparator} {next : WrittenConstant → Reading WrittenQuery}
    (goesOn : ∀ constant rest,
      Follows (next constant) (.complete ⟨fields, some ⟨field, sign, constant⟩⟩) [] rest) :
    Follows (constant >>= next) (.beforeConstant fields field sign) [] stream := by
  rw [constant, bind_assoc]
  apply follows_check List.not_mem_nil
  · intro begins
    obtain ⟨token, place, rest, rfl, kind⟩ := TokenStream.exists_cons_of_symbol? begins (by decide)
    cases token with
    | number numeral =>
        simp only [if_true, bind_assoc]
        exact follows_advance rfl rfl (goesOn _ rest)
    | _ => cases kind
  · simp only [Bool.false_eq_true, if_false, bind_assoc]
    apply follows_check (by decide)
    · intro begins
      obtain ⟨token, place, rest, rfl, kind⟩ :=
        TokenStream.exists_cons_of_symbol? begins (by decide)
      cases token with
      | string body =>
          simp only [if_true, bind_assoc]
          exact follows_advance rfl rfl (goesOn _ rest)
      | _ => cases kind
    · exact follows_refuse rfl

theorem follows_condition {next : Condition WrittenConstant → Reading WrittenQuery}
    (goesOn : ∀ condition rest,
      Follows (next condition) (.complete ⟨fields, some condition⟩) [] rest) :
    Follows (condition >>= next) (.beforeConditionField fields) [] stream := by
  simp only [condition, bind_assoc]
  apply follows_identifier rfl (fun _ => rfl) rfl
  intro field _ rest _
  apply follows_comparator
  intro sign rest
  apply follows_constant
  intro constant rest
  exact goesOn ⟨field, sign, constant⟩ rest

/-- Behind the fields there may be a filter. Behind a name a comma has been tried before, so the two
places differ in what an error wants there. -/
theorem follows_filter (taken : progress.step .filter = some (.beforeConditionField fields))
    (missed : progress.missed .filter = tried) (finished : progress.finish? = some ⟨fields, none⟩)
    (expected : progress.expected = tried ++ [.filter, .endOfInput]) :
    Follows (filter >>= fun filter => expect .endOfInput >>= fun _ => pure ⟨fields, filter⟩)
      progress tried stream := by
  rw [filter, bind_assoc]
  apply follows_check (not_mem_of_expected expected)
  · intro begins
    obtain ⟨token, place, rest, rfl, kind⟩ := TokenStream.exists_cons_of_symbol? begins (by decide)
    cases token with
    | filter =>
        simp only [if_true, bind_assoc]
        apply follows_advance taken missed
        apply follows_condition
        intro condition rest
        exact follows_end rfl rfl
    | _ => cases kind
  · rw [List.append_cons] at expected
    exact follows_end finished expected

/-- The induction is on the bound of the loop. A turn passes two tokens, so the bound is not reached
before the tokens are used up. -/
theorem follows_more_names {next : List String → Reading WrittenQuery}
    (goesOn : ∀ names rest, Follows (next names) (.afterName names) [.comma] rest)
    (fuel : Nat) (names : List String) (stream : TokenStream)
    (enough : stream.tokens.length < 2 * fuel) :
    Follows (moreNames fuel names >>= next) (.afterName names) [] stream := by
  induction fuel generalizing names stream with
  | zero => exact absurd enough (Nat.not_lt_zero _)
  | succ fuel induction =>
      rw [moreNames, bind_assoc]
      apply follows_check List.not_mem_nil
      · intro begins
        obtain ⟨token, place, rest, rfl, kind⟩ :=
          TokenStream.exists_cons_of_symbol? begins (by decide)
        cases token with
        | comma =>
            simp only [if_true, bind_assoc]
            apply follows_advance
            · rfl
            · rfl
            · apply follows_identifier rfl (fun _ => rfl) rfl
              rintro name other rest rfl
              apply induction
              simp only [TokenStream.tokens, List.length_cons] at enough
              omega
        | _ => cases kind
      · exact goesOn names stream

theorem follows_fields {next : Fields → Reading WrittenQuery}
    (wildcard : ∀ rest, Follows (next .wildcard) .afterStar [] rest)
    (named : ∀ names rest, Follows (next (.named names)) (.afterName names) [.comma] rest) :
    Follows (Reading.fields >>= next) .beforeFields [] stream := by
  rw [Reading.fields, bind_assoc]
  apply follows_check List.not_mem_nil
  · intro begins
    obtain ⟨token, place, rest, rfl, kind⟩ := TokenStream.exists_cons_of_symbol? begins (by decide)
    cases token with
    | star =>
        simp only [if_true, bind_assoc]
        exact follows_advance rfl rfl (wildcard rest)
    | _ => cases kind
  · simp only [Bool.false_eq_true, if_false, bind_assoc]
    apply follows_identifier rfl (fun _ => rfl) rfl
    intro name place rest _ parser source noted vain stands
    have bound : rest.tokens.length ≤ parser.lexer.source.length + 1 := stands.length_tokens_le
    have enough : rest.tokens.length < 2 * (parser.lexer.source.length + 1) := by omega
    rw [run_on_get_bind]
    exact follows_more_names named _ _ _ enough parser source noted vain stands

theorem follows_query (stream : TokenStream) : Follows query .beforeProject [] stream := by
  rw [query]
  apply follows_expect rfl
  intro begins
  obtain ⟨token, place, rest, rfl, kind⟩ := TokenStream.exists_cons_of_symbol? begins (by decide)
  cases token with
  | project =>
      apply follows_advance
      · rfl
      · rfl
      · apply follows_fields
        · intro rest
          exact follows_filter rfl rfl rfl rfl
        · intro names rest
          exact follows_filter rfl rfl rfl rfl
  | _ => cases kind

end Grammar

end Reading

namespace Parser

theorem of_stream_of_readable {stream : TokenStream} (readable : ∀ error, stream ≠ .failure error)
    (source : List Char) : ofStream source stream = .ok ⟨source, stream, []⟩ := by
  cases stream with
  | failure error => exact absurd rfl (readable error)
  | endOfInput place => rfl
  | cons token place rest => rfl

theorem source_after_calls (parser : Parser) (count : Nat) :
    (parser.afterCalls count).source = parser.source := by
  induction count generalizing parser with
  | zero => rfl
  | succ count induction => exact induction parser.parseQuery.2

end Parser

namespace ByteParser

/-- However often a parser is called, it answers what the other parser answers, and the offsets of
its lexer stay in range. -/
def AnswersLike (parser : ByteParser) (other : Parser) : Prop :=
  ∀ count, ∃ now after, parser.afterCalls? count = some now ∧
    now.lexer.source = other.source ∧ now.lexer.InRange ∧
    Reading.query.runOn now = some ((other.call count).mapError SyntaxError.diagnosis, after)

section Calls

variable {parser : ByteParser} {other : Parser}

theorem StandsFor.query (stands : parser.StandsFor other) :
    ∃ after, Reading.query.runOn parser =
        some (other.parseQuery.1.mapError SyntaxError.diagnosis, after) ∧
      after.StandsFor other.parseQuery.2 := by
  obtain ⟨source, stream, noted⟩ := other
  have untried : parser.StandsFor ⟨source, stream, noteSymbols noted []⟩ := by
    rw [note_symbols_none]
    exact stands
  obtain ⟨after, run, next⟩ :=
    Reading.follows_query stream parser source noted (List.forall_mem_nil _) untried
  refine ⟨after, ?_, next⟩
  rw [run, Parser.parseQuery, mapError_mapError]
  rfl

theorem StandsFor.after_calls (stands : parser.StandsFor other) (count : Nat) :
    ∃ now, parser.afterCalls? count = some now ∧ now.StandsFor (other.afterCalls count) := by
  induction count generalizing parser other with
  | zero => exact ⟨parser, rfl, stands⟩
  | succ count induction =>
      obtain ⟨next, run, nextStands⟩ := stands.query
      obtain ⟨now, later, nowStands⟩ := induction nextStands
      refine ⟨now, ?_, nowStands⟩
      rw [afterCalls?, run]
      exact later

theorem StandsFor.answers_like (stands : parser.StandsFor other) : parser.AnswersLike other := by
  intro count
  obtain ⟨now, reached, nowStands⟩ := stands.after_calls count
  obtain ⟨after, run, -⟩ := nowStands.query
  have source := nowStands.source.trans (other.source_after_calls count)
  exact ⟨now, after, reached, source, nowStands.in_range, run⟩

end Calls

theorem of_lexer?_of_lexer (lexer : Lexer) :
    match Parser.ofStream lexer.source (.ofLexer lexer) with
    | .error error => ofLexer? (.ofLexer lexer) = some (.error error.diagnosis)
    | .ok other =>
        ∃ parser, ofLexer? (.ofLexer lexer) = some (.ok parser) ∧ parser.AnswersLike other := by
  cases answered : lexer.answer with
  | error error =>
      rw [(TokenStream.of_lexer_of_error answered).1]
      exact of_lexer?_of_error answered
  | ok terminal =>
      have stands := stands_for_of_answer answered
      rw [Parser.of_stream_of_readable stands.readable]
      exact ⟨_, of_lexer?_of_ok answered, stands.answers_like⟩

end ByteParser

/-- Reading tokens and queries never breaks, whatever is called how often and in whatever order,
also behind an error or the end of the text. Every cut lies between two characters, no number falls
below zero, and a token that is passed is of the kind that was just tested. -/
theorem calls_never_break (text : List Char) (calls : List LexerCall) :
    (∃ lexer, (ByteLexer.start text).replies? calls =
        some (((Lexer.start text).replies calls).1, lexer) ∧
      lexer.source = text ∧ lexer.InRange ∧
      match Parser.ofStream text (.ofLexer ((Lexer.start text).replies calls).2) with
      | .error error => ByteParser.ofLexer? lexer = some (.error error.diagnosis)
      | .ok other =>
          ∃ parser, ByteParser.ofLexer? lexer = some (.ok parser) ∧ parser.AnswersLike other) ∧
    (∀ lexer : ByteLexer, lexer.InRange → lexer.rest?.isSome ∧ lexer.place?.isSome ∧
      ∃ answer after, lexer.next? = some (answer, after) ∧ after.source = lexer.source ∧
        after.InRange) ∧
    ∀ (symbol : Symbol) (parser checked after : ByteParser) (passed : Terminal),
      (Reading.check symbol).runOn parser = some (.ok true, checked) →
      Reading.advance.runOn checked = some (.ok passed, after) →
      passed = parser.current ∧ passed.symbol = symbol := by
  have source := (Lexer.start text).source_replies calls
  have replies := ByteLexer.replies?_of_lexer (.start text) calls
  have opened := ByteParser.of_lexer?_of_lexer ((Lexer.start text).replies calls).2
  rw [ByteLexer.of_lexer_start] at replies
  rw [source] at opened
  refine ⟨⟨_, replies, source, ByteLexer.in_range_of_lexer _, opened⟩, ?_, ?_⟩
  · intro lexer inRange
    exact inRange.step
  · intro symbol parser checked after passed matched taken
    obtain ⟨rfl, kind⟩ := Reading.symbol_of_check matched
    have current := Reading.current_of_advance taken
    exact ⟨current, current ▸ kind⟩

/-- An open string behind a word with an accent fails every time, for the parser too. -/
theorem calls_never_break_open_string :
    let text := "é \x60".toList
    let unclosed : LexicalError := ⟨.unterminatedString, ⟨3, 1, 3⟩⟩
    let parser : ByteParser := ⟨.start " *".toList, some (.identifier "é"), ⟨0, 1, 1⟩, []⟩
    let after : ByteParser := ⟨⟨" *".toList, 2, 1⟩, some .star, ⟨1, 1, 2⟩, []⟩
    (∃ lexer, (ByteLexer.start text).replies? [.nextToken, .nextToken, .nextToken, .tokenStart] =
        some ([.next (.ok (some (.identifier "é"))), .next (.error unclosed),
          .next (.error unclosed), .start ⟨3, 1, 3⟩], lexer) ∧
      lexer.InRange ∧ (∃ answer later, lexer.next? = some (answer, later) ∧ later.InRange) ∧
      ByteParser.ofLexer? lexer =
        some (.error (SyntaxError.diagnosis ⟨text, ⟨3, 1, 3⟩, .lexical .unterminatedString⟩))) ∧
    (Reading.check .identifier).runOn parser = some (.ok true, parser) ∧
    Reading.advance.runOn parser = some (.ok (some (.identifier "é")), after) ∧
    some (Token.identifier "é") = parser.current := by
  intro text unclosed parser after
  let calls : List LexerCall := [.nextToken, .nextToken, .nextToken, .tokenStart]
  obtain ⟨⟨lexer, replies, -, inRange, opened⟩, steps, passes⟩ := calls_never_break text calls
  obtain ⟨-, -, answer, later, next, -, stays⟩ := steps lexer inRange
  have failed : Parser.ofStream text (.ofLexer ((Lexer.start text).replies calls).2) =
      .error ⟨text, ⟨3, 1, 3⟩, .lexical .unterminatedString⟩ :=
    eq_error_of_fault? (by decide +kernel)
  rw [failed] at opened
  have matched : (Reading.check .identifier).runOn parser = some (.ok true, parser) := rfl
  have taken : Reading.advance.runOn parser = some (.ok (some (.identifier "é")), after) := rfl
  exact ⟨⟨lexer, replies, inRange, ⟨answer, later, next, stays⟩, opened⟩, matched, taken,
    (passes .identifier parser parser after _ matched taken).1⟩

end TableQuery
