import Mathlib.Data.List.Flatten
import Mathlib.Data.List.Nodup
import TableQuery.Proofs.Query.FirstFailure

/-!
Asking one parser for a query again and again. A call begins at the token where the one before it
stopped, and it goes on from there only if this token is `PROJECT`. So the calls that pass a token
use up one `PROJECT` each, and the first call that passes none is repeated by all later ones. After
a query there is only the end of the text left.
-/

namespace TableQuery

namespace TokenStream

def tokens : TokenStream → List Token
  | cons token _ rest => token :: rest.tokens
  | _ => []

/-- What is left of a stream when some of its tokens have been passed. -/
inductive IsTailOf : TokenStream → TokenStream → Prop
  | all (stream : TokenStream) : IsTailOf stream stream
  | pass {tail rest : TokenStream} (token : Token) (position : Position)
      (later : IsTailOf tail rest) : IsTailOf tail (cons token position rest)

/-- If the stream comes to the end of the text, then at this place. A stream that ends in a lexical
error never says where the text ends. -/
def EndsAt (place : Position) : TokenStream → Prop
  | endOfInput position => position = place
  | failure _ => True
  | cons _ _ rest => rest.EndsAt place

section Tail

variable {tail stream : TokenStream}

theorem IsTailOf.trans {last : TokenStream} (later : last.IsTailOf tail)
    (isTail : tail.IsTailOf stream) : last.IsTailOf stream := by
  induction isTail with
  | all => exact later
  | pass token position _ induction => exact .pass token position induction

theorem IsTailOf.sublist (isTail : tail.IsTailOf stream) : tail.tokens.Sublist stream.tokens := by
  induction isTail with
  | all => exact List.Sublist.refl _
  | pass token _ _ induction => exact .cons token induction

theorem IsTailOf.ends_at (isTail : tail.IsTailOf stream) {place : Position}
    (ends : stream.EndsAt place) : tail.EndsAt place := by
  induction isTail with
  | all => exact ends
  | pass _ _ _ induction => exact induction ends

theorem IsTailOf.ne_cons (isTail : tail.IsTailOf stream) (token : Token) (position : Position) :
    tail ≠ cons token position stream := by
  intro same
  have shorter := isTail.sublist.length_le
  rw [same, tokens, List.length_cons] at shorter
  exact Nat.not_succ_le_self _ shorter

theorem drop_is_tail_of (count : Nat) (stream : TokenStream) :
    (stream.drop count).IsTailOf stream := by
  induction count generalizing stream with
  | zero => exact .all stream
  | succ count induction =>
      cases stream with
      | endOfInput place => exact .all _
      | failure error => exact .all _
      | cons token position rest => exact .pass token position (induction rest)

end Tail

end TokenStream

namespace Lexer

theorem next_position_of_end_of_input {lexer : Lexer} (ended : lexer.outcome = .endOfInput) :
    lexer.nextPosition = .after lexer.source := by
  have whole := lexer.source_next
  rw [nextPosition, position, ← whole]
  unfold outcome next at ended
  unfold next
  dsimp only at ended ⊢
  split at ended
  · simp only [source, List.append_nil]
  · split at ended <;> cases ended

end Lexer

namespace TokenStream

theorem ends_at_of_lexer (lexer : Lexer) : (ofLexer lexer).EndsAt (.after lexer.source) := by
  cases found : lexer.outcome with
  | token token =>
      have read : lexer.next = (.token token, lexer.next.2) := Prod.ext found rfl
      have shorter := Lexer.length_rest_lt_of_next read
      have later := ends_at_of_lexer lexer.next.2
      rw [lexer.source_next] at later
      rw [of_lexer_token read]
      exact later
  | endOfInput =>
      rw [of_lexer_end_of_input found]
      exact Lexer.next_position_of_end_of_input found
  | failure fault =>
      rw [of_lexer_failure found]
      trivial
termination_by lexer.rest.length

theorem ends_at_of_source (source : List Char) : (ofSource source).EndsAt (.after source) :=
  ends_at_of_lexer (.start source)

end TokenStream

namespace Symbol

def every : List Symbol :=
  [project, filter, star, comma, comparator .equal, comparator .greater, comparator .greaterEqual,
    comparator .less, comparator .lessEqual, identifier, number, string, endOfInput]

theorem mem_every (symbol : Symbol) : symbol ∈ every := by
  cases symbol with
  | comparator sign => cases sign <;> decide
  | _ => decide

/-- Messages name every symbol in a way of its own, so a list without a repeated symbol is shown
without a repeated word. -/
theorem text_injective : Function.Injective text := by
  intro left right same
  have distinct : (every.map text).Nodup := by decide
  exact List.inj_on_of_nodup_map distinct left.mem_every right.mem_every same

end Symbol

section Noted

variable {noted fresh : List Symbol}

theorem nodup_note_symbols (distinct : noted.Nodup) (distinctFresh : fresh.Nodup) :
    (noteSymbols noted fresh).Nodup := by
  rw [noteSymbols, List.nodup_append]
  refine ⟨distinct, distinctFresh.filter _, ?_⟩
  intro symbol known other added same
  have unknown := (List.mem_filter.1 added).2
  rw [← same, List.contains_iff_mem.2 known] at unknown
  cases unknown

theorem mem_note_symbols {symbol : Symbol} :
    symbol ∈ noteSymbols noted fresh ↔ symbol ∈ noted ∨ symbol ∈ fresh := by
  by_cases known : symbol ∈ noted <;> simp [noteSymbols, known]

theorem note_symbols_none (noted : List Symbol) : noteSymbols noted [] = noted :=
  List.append_nil noted

theorem note_symbols_note_symbols (noted fresh : List Symbol) :
    noteSymbols (noteSymbols noted fresh) fresh = noteSymbols noted fresh := by
  have nothing : fresh.filter (fun symbol => !(noteSymbols noted fresh).contains symbol) = [] := by
    rw [List.filter_eq_nil_iff]
    intro symbol member
    have known := List.contains_iff_mem.2 (mem_note_symbols.2 (.inr member) :
      symbol ∈ noteSymbols noted fresh)
    rw [known]
    decide
  conv_lhs => rw [noteSymbols, nothing, List.append_nil]

end Noted

namespace Progress

theorem nodup_expected_symbols (progress : Progress) : progress.expected.Nodup :=
  .of_map Symbol.text progress.nodup_expected

theorem nodup_missed (progress : Progress) (symbol : Symbol) : (progress.missed symbol).Nodup := by
  have sublist : (progress.missed symbol).Sublist progress.expected :=
    (List.takeWhile_sublist _).flatten
  exact sublist.nodup progress.nodup_expected_symbols

/-- What reading on in a stream comes to, whatever has been noted before: the query, one token less,
or a failure in front of the same token, which notes the same symbols every time. -/
inductive RunsOn (progress : Progress) : TokenStream → Prop
  | finishes (query : WrittenQuery) (place : Position)
      (run : ∀ noted, progress.run noted (.endOfInput place) =
        ⟨.ok query, .endOfInput place, []⟩) : RunsOn progress (.endOfInput place)
  | passes {token : Token} (next : Progress) (position : Position) (rest : TokenStream)
      (taken : progress.step token = some next)
      (run : ∀ noted, progress.run noted (.cons token position rest) = next.run [] rest) :
      RunsOn progress (.cons token position rest)
  | stays {stream : TokenStream} (fresh : List Symbol) (failure : List Symbol → Failure)
      (distinct : fresh.Nodup)
      (expected : ∀ wanted, wanted.Nodup → (failure wanted).fault.expected.Nodup)
      (run : ∀ noted, progress.run noted stream =
        ⟨.error (failure (noteSymbols noted fresh)), stream, noteSymbols noted fresh⟩) :
      RunsOn progress stream

theorem runs_on (progress : Progress) (stream : TokenStream) : progress.RunsOn stream := by
  have distinct := progress.nodup_expected_symbols
  cases stream with
  | endOfInput place =>
      cases ended : progress.finish? with
      | some query =>
          apply RunsOn.finishes query
          intro noted
          simp only [run, ended]
      | none =>
          apply RunsOn.stays _ (fun wanted => ⟨place, .unexpected wanted none⟩) distinct
          · exact fun _ => id
          · intro noted
            simp only [run, ended]
  | failure error =>
      apply RunsOn.stays [] (fun _ => error.failure) List.nodup_nil
      · exact fun _ _ => List.nodup_nil
      · intro noted
        rw [note_symbols_none]
        rfl
  | cons token position rest =>
      cases step : progress.step token with
      | none =>
          apply RunsOn.stays _ (fun wanted => ⟨position, .unexpected wanted (some token)⟩) distinct
          · exact fun _ => id
          · intro noted
            simp only [run, step]
      | some next =>
          -- The token is passed only if the one behind it can be read.
          cases rest with
          | failure error =>
              apply RunsOn.stays _ (fun _ => error.failure) (progress.nodup_missed token.symbol)
              · exact fun _ _ => List.nodup_nil
              · intro noted
                simp only [run, step]
          | endOfInput ending =>
              apply RunsOn.passes next position _ step
              intro noted
              simp only [run, step]
          | cons following place suffix =>
              apply RunsOn.passes next position _ step
              intro noted
              conv_lhs => rw [run.eq_def]
              simp only [step]

end Progress

structure Attempt.LeadsFrom (stream : TokenStream) (attempt : Attempt) : Prop where
  remaining : attempt.remaining.IsTailOf stream
  noted : attempt.noted.Nodup
  expected : ∀ failure, attempt.outcome = .error failure → failure.fault.expected.Nodup
  finished : ∀ query, attempt.outcome = .ok query →
    attempt.noted = [] ∧ ∃ place, attempt.remaining = .endOfInput place

namespace Progress

theorem leads_from_run {noted : List Symbol} (distinct : noted.Nodup) (progress : Progress)
    (stream : TokenStream) : (progress.run noted stream).LeadsFrom stream := by
  cases progress.runs_on stream with
  | finishes query place run =>
      rw [run]
      refine ⟨.all _, List.nodup_nil, ?_, fun _ _ => ⟨rfl, place, rfl⟩⟩
      intro failure failed
      cases failed
  | passes next position rest _ run =>
      have later := leads_from_run List.nodup_nil next rest
      rw [run]
      exact { later with remaining := .pass _ position later.remaining }
  | stays fresh failure distinctFresh expected run =>
      have wanted := nodup_note_symbols distinct distinctFresh
      rw [run]
      constructor
      · exact .all stream
      · exact wanted
      · intro other failed
        cases failed
        exact expected _ wanted
      · intro query done
        cases done

theorem eq_project_of_step {token : Token} {next : Progress}
    (taken : beforeProject.step token = some next) : token = .project := by
  cases token <;> cases taken
  rfl

/-- A call passes `PROJECT` and more, or it stays and fails, and then it does the same again. -/
theorem run_before_project_cases (noted : List Symbol) (stream : TokenStream) :
    (∃ failure, (beforeProject.run noted stream).outcome = .error failure ∧
      (beforeProject.run noted stream).remaining = stream ∧
      beforeProject.run (beforeProject.run noted stream).noted stream =
        beforeProject.run noted stream) ∨
    ∃ position rest, stream = .cons .project position rest ∧
      (beforeProject.run noted stream).remaining.IsTailOf rest := by
  cases beforeProject.runs_on stream with
  | finishes query place run => cases congrArg Attempt.outcome (run noted)
  | passes next position rest taken run =>
      right
      rw [run, eq_project_of_step taken]
      exact ⟨position, rest, rfl, (next.leads_from_run List.nodup_nil rest).remaining⟩
  | stays fresh failure _ _ run =>
      left
      rw [run]
      refine ⟨_, rfl, rfl, ?_⟩
      rw [run, note_symbols_note_symbols]

end Progress

/-- The error of a call that starts at the end of the text. What it wanted and what it found are
also given in the words that the message is made of, which a reader sees in place of the symbols. -/
structure SyntaxError.IsAtEndOf (error : SyntaxError) (source : List Char) : Prop where
  same : error = ⟨source, .after source, .unexpected [.project] none⟩
  expected : error.fault.expected.map Symbol.text = ["\"PROJECT\""]
  found : error.fault.foundText = "end of input"

namespace Parser

def afterCalls (parser : Parser) : Nat → Parser
  | 0 => parser
  | count + 1 => parser.parseQuery.2.afterCalls count

def call (parser : Parser) (index : Nat) : Except SyntaxError WrittenQuery :=
  (parser.afterCalls index).parseQuery.1

def Stays (parser : Parser) : Prop := parser.parseQuery.2.remaining = parser.remaining

variable {parser : Parser}

theorem after_calls_add (parser : Parser) (first second : Nat) :
    parser.afterCalls (first + second) = (parser.afterCalls first).afterCalls second := by
  induction first generalizing parser with
  | zero => rw [Nat.zero_add, afterCalls]
  | succ first induction =>
      rw [Nat.add_right_comm, afterCalls, induction]
      rfl

theorem call_add (parser : Parser) (first second : Nat) :
    parser.call (first + second) = (parser.afterCalls first).call second := by
  rw [call, call, after_calls_add]

/-- A call that passes no token fails, and the next call does the same, since it starts from the
same token and notes nothing that has not been noted. -/
theorem parse_query_of_stays (stays : parser.Stays) :
    parser.parseQuery.2.parseQuery = parser.parseQuery ∧
      ∃ error, parser.parseQuery.1 = .error error := by
  obtain ⟨source, remaining, noted⟩ := parser
  obtain ⟨failure, failed, same, again⟩ | ⟨position, rest, split, isTail⟩ :=
    Progress.run_before_project_cases noted remaining
  · have error : (Parser.mk source remaining noted).parseQuery.1 =
        .error (syntaxError source failure) := by
      rw [parseQuery, failed]
      rfl
    refine ⟨?_, _, error⟩
    simp only [parseQuery, same, again]
  · cases split
    exact absurd stays (isTail.ne_cons _ _)

theorem call_of_stays (stays : parser.Stays) (index : Nat) :
    parser.call index = parser.parseQuery.1 := by
  have again := (parse_query_of_stays stays).1
  cases index with
  | zero => rfl
  | succ index =>
      have fixed : parser.parseQuery.2.afterCalls index = parser.parseQuery.2 := by
        induction index with
        | zero => rfl
        | succ index induction => rw [afterCalls, again, induction]
      rw [call, afterCalls, fixed, again]

/-- A call that passes a token uses up a `PROJECT`, because no query begins with anything else. This
is what bounds the calls that still get somewhere. -/
theorem count_lt_of_not_stays (passes : ¬parser.Stays) :
    parser.parseQuery.2.remaining.tokens.count .project <
      parser.remaining.tokens.count .project := by
  obtain ⟨source, remaining, noted⟩ := parser
  obtain ⟨failure, failed, same, again⟩ | ⟨position, rest, split, isTail⟩ :=
    Progress.run_before_project_cases noted remaining
  · exact absurd same passes
  · have fewer := isTail.sublist.count_le .project
    rw [split] at fewer ⊢
    dsimp only [parseQuery]
    rw [TokenStream.tokens, List.count_cons_self]
    exact Nat.lt_succ_of_le fewer

theorem exists_stays (parser : Parser) :
    ∃ index ≤ parser.remaining.tokens.count .project, (parser.afterCalls index).Stays := by
  by_cases stays : parser.Stays
  · exact ⟨0, Nat.zero_le _, stays⟩
  · have fewer := count_lt_of_not_stays stays
    obtain ⟨index, bound, later⟩ := exists_stays parser.parseQuery.2
    exact ⟨index + 1, Nat.lt_of_le_of_lt bound fewer, later⟩
termination_by parser.remaining.tokens.count .project

structure ComesFrom (start parser : Parser) : Prop where
  source : parser.source = start.source
  remaining : parser.remaining.IsTailOf start.remaining
  noted : parser.noted.Nodup

theorem ComesFrom.next {start : Parser} (comes : ComesFrom start parser) :
    ComesFrom start parser.parseQuery.2 := by
  have attempt := Progress.leads_from_run comes.noted .beforeProject parser.remaining
  exact ⟨comes.source, attempt.remaining.trans comes.remaining, attempt.noted⟩

theorem ComesFrom.after_calls {start : Parser} (comes : ComesFrom start parser) (index : Nat) :
    ComesFrom start (parser.afterCalls index) := by
  induction index generalizing parser with
  | zero => exact comes
  | succ index induction => exact induction comes.next

theorem comes_from_after_calls (distinct : parser.noted.Nodup) (index : Nat) :
    ComesFrom parser (parser.afterCalls index) :=
  ComesFrom.after_calls ⟨rfl, .all _, distinct⟩ index

theorem nodup_expected_of_error (distinct : parser.noted.Nodup) {error : SyntaxError}
    (failed : parser.parseQuery.1 = .error error) :
    (error.fault.expected.map Symbol.text).Nodup := by
  have attempt := Progress.leads_from_run distinct .beforeProject parser.remaining
  obtain ⟨failure, found, rfl⟩ := exists_of_mapError_eq_error failed
  exact (attempt.expected failure found).map Symbol.text_injective

/-- A parser that has read a query stands at the end of the text, with nothing noted. -/
theorem exists_of_query (distinct : parser.noted.Nodup) {query : WrittenQuery}
    (done : parser.parseQuery.1 = .ok query) :
    ∃ place, parser.parseQuery.2 = ⟨parser.source, .endOfInput place, []⟩ := by
  have attempt := Progress.leads_from_run distinct .beforeProject parser.remaining
  obtain ⟨nothing, place, ended⟩ := attempt.finished query (eq_ok_of_mapError done)
  refine ⟨place, ?_⟩
  rw [parseQuery, nothing, ended]

theorem call_of_end_of_input (source : List Char) (place : Position) (index : Nat) :
    (Parser.mk source (.endOfInput place) []).call index =
      .error ⟨source, place, .unexpected [.project] none⟩ := by
  have stays : (Parser.mk source (.endOfInput place) []).Stays := by
    rw [Stays]
    rfl
  rw [call_of_stays stays]
  rfl

/-- Calling a parser again and again comes to an end, with at most one query on the way. The bound
on the calls before that is in terms of what the parser has still to read. -/
structure Converges (parser : Parser) : Prop where
  /-- Calls are counted from zero, so as many calls as there are `PROJECT` tokens go before. -/
  settles : ∃ index ≤ parser.remaining.tokens.count .project, (parser.afterCalls index).Stays
  repeats : ∀ index, (parser.afterCalls index).Stays →
    ∃ error, ∀ later, index ≤ later → parser.call later = .error error
  once : ∀ index other query otherQuery, parser.call index = .ok query →
    parser.call other = .ok otherQuery → index = other
  exhausted : ∀ index query, parser.call index = .ok query → ∀ later, index < later →
    ∃ error, parser.call later = .error error ∧ error.IsAtEndOf parser.source
  distinct : ∀ index error, parser.call index = .error error →
    (error.fault.expected.map Symbol.text).Nodup

theorem call_after_query (distinct : parser.noted.Nodup)
    (ends : parser.remaining.EndsAt (.after parser.source)) {index : Nat} {query : WrittenQuery}
    (done : parser.call index = .ok query) {later : Nat} (behind : index < later) :
    parser.call later =
      .error ⟨parser.source, .after parser.source, .unexpected [.project] none⟩ := by
  have comes := comes_from_after_calls distinct index
  obtain ⟨place, next⟩ := exists_of_query comes.noted done
  have sameEnd : place = .after parser.source := by
    have ended := comes.next.remaining.ends_at ends
    rw [next] at ended
    exact ended
  obtain ⟨more, rfl⟩ := Nat.exists_eq_add_of_lt behind
  rw [Nat.add_assoc, call_add, call, afterCalls, next, ← call, call_of_end_of_input, comes.source,
    sameEnd]

theorem converges (distinct : parser.noted.Nodup)
    (ends : parser.remaining.EndsAt (.after parser.source)) : parser.Converges where
  settles := parser.exists_stays
  repeats := by
    intro index stays
    obtain ⟨error, failed⟩ := (parse_query_of_stays stays).2
    refine ⟨error, ?_⟩
    intro later behind
    obtain ⟨more, rfl⟩ := Nat.exists_eq_add_of_le behind
    rw [call_add, call_of_stays stays, failed]
  once := by
    intro index other query otherQuery done doneOther
    rcases Nat.lt_trichotomy index other with before | same | behind
    · rw [call_after_query distinct ends done before] at doneOther
      cases doneOther
    · exact same
    · rw [call_after_query distinct ends doneOther behind] at done
      cases done
  exhausted := by
    intro index query done later behind
    exact ⟨_, call_after_query distinct ends done behind, rfl, rfl, rfl⟩
  distinct := by
    intro index error failed
    have comes := comes_from_after_calls distinct index
    exact nodup_expected_of_error comes.noted failed

theorem eq_of_of_stream {source : List Char} {stream : TokenStream}
    (made : ofStream source stream = .ok parser) : parser = ⟨source, stream, []⟩ := by
  cases stream <;> cases made <;> rfl

end Parser

/-- A parser that starts at any token of a text can be called again and again. There is a call that
passes no token, after at most as many others as there are `PROJECT` tokens to come, and from it on
every call gives the same error. At most one call gives a query, and behind it nothing is left but
to miss a `PROJECT` at the end of the text. No error wants a symbol twice. -/
theorem repeated_calls_converge {source : List Char} {skipped : Nat} {parser : Parser}
    (made : Parser.ofStream source ((TokenStream.ofSource source).drop skipped) = .ok parser) :
    parser.source = source ∧ parser.remaining = (TokenStream.ofSource source).drop skipped ∧
      parser.Converges := by
  have ends :=
    (TokenStream.drop_is_tail_of skipped _).ends_at (TokenStream.ends_at_of_source source)
  rw [Parser.eq_of_of_stream made]
  exact ⟨rfl, rfl, Parser.converges List.nodup_nil ends⟩

/-- The first call stops at the second `PROJECT`, the next one reads a query from there. -/
theorem repeated_calls_converge_second_project :
    let source := "x PROJECT PROJECT *".toList
    let stream := (TokenStream.ofSource source).drop 1
    let parser : Parser := ⟨source, stream, []⟩
    Parser.ofStream source stream = .ok parser ∧ parser.Converges ∧
      parser.call 0 = .error ⟨source, ⟨10, 1, 11⟩,
        .unexpected [.star, .identifier] (some .project)⟩ ∧
      parser.call 1 = .ok ⟨.wildcard, none⟩ ∧
      ∀ later, 1 < later → ∃ error, parser.call later = .error error ∧
        error.position = ⟨19, 1, 20⟩ ∧ error.fault.foundText = "end of input" ∧
        error.fault.expected.map Symbol.text = ["\"PROJECT\""] := by
  intro source stream parser
  have made : Parser.ofStream source stream = .ok parser := eq_ok_of_toOption (by decide +kernel)
  have converges := (repeated_calls_converge made).2.2
  have first : parser.call 0 = .error ⟨source, ⟨10, 1, 11⟩,
      .unexpected [.star, .identifier] (some .project)⟩ := eq_error_of_fault? (by decide +kernel)
  have second : parser.call 1 = .ok ⟨.wildcard, none⟩ := eq_ok_of_toOption (by decide +kernel)
  have place : Position.after source = ⟨19, 1, 20⟩ := by decide
  refine ⟨made, converges, first, second, ?_⟩
  intro later behind
  obtain ⟨error, failed, atEnd⟩ := converges.exhausted 1 _ second later behind
  have position : error.position = ⟨19, 1, 20⟩ := by rw [atEnd.same, ← place]
  exact ⟨error, failed, position, atEnd.found, atEnd.expected⟩

end TableQuery
