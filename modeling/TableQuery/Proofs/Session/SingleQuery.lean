import TableQuery.CommandLine.Program
import TableQuery.Proofs.Query.Surroundings
import TableQuery.Proofs.Session.Journal
import TableQuery.Proofs.Text.Ascii

/-!
The two ways to ask a query: on the command line, or as the only line of a dialogue. The dialogue
trims the line and looks for its commands first. Neither matters to a query that has an answer, and
a query without one is refused for the same reason both ways.
-/

namespace TableQuery

/-- Errors that differ at most in the place of the fault. For a text that is no query this leaves
what was expected and what was found, and for a query the unknown names. -/
inductive QueryError.SameCause : QueryError → QueryError → Prop
  | rejected {error other : SyntaxError} (fault : error.fault = other.fault) :
      SameCause (.rejected error) (.rejected other)
  | unknownFields (names : List String) : SameCause (.unknownFields names) (.unknownFields names)

/-- Both attempts give the same result, or both fail for the same reason. -/
inductive AgreesWith {Result : Type} : Except QueryError Result → Except QueryError Result → Prop
  | ok (result : Result) : AgreesWith (.ok result) (.ok result)
  | error {error other : QueryError} (cause : error.SameCause other) :
      AgreesWith (.error error) (.error other)

theorem AgreesWith.map {Result Other : Type} {attempt other : Except QueryError Result}
    (agrees : AgreesWith attempt other) (change : Result → Other) :
    AgreesWith (attempt.map change) (other.map change) := by
  cases agrees with
  | ok result => exact .ok (change result)
  | error cause => exact .error cause

/-- White space around a text neither makes it a query nor keeps it from being one. -/
theorem parse_trimmed_cases (text : String) :
    (∃ query, parse text = .ok query ∧ parse (trimmed text) = .ok query) ∨
      ∃ error other, parse text = .error error ∧ parse (trimmed text) = .error other ∧
        error.fault = other.fault := by
  have sameFault := fault_parse_trimmed text
  cases first : parse text with
  | ok query =>
      rw [first] at sameFault
      exact .inl ⟨query, rfl, eq_ok_of_mapError sameFault.symm⟩
  | error error =>
      rw [first] at sameFault
      obtain ⟨other, second, fault⟩ := exists_of_mapError_eq_error sameFault.symm
      exact .inr ⟨error, other, rfl, second, fault.symm⟩

namespace Session

def resolve (session : Session) (query : Query Literal) : Except QueryError Answer :=
  let unknown := session.unknownFields query
  if unknown.isEmpty then
    .ok ⟨query, session.headers query.fields, query.execute session.dataset.rows⟩
  else .error (.unknownFields unknown)

theorem answer_eq_of_parse {session : Session} {text : String} {query : WrittenQuery}
    (parsed : parse text = .ok query) : session.answer text = session.resolve query.evaluate := by
  rw [answer, Query.read, parsed]
  rfl

theorem answer_eq_of_parse_error {session : Session} {text : String} {error : SyntaxError}
    (refused : parse text = .error error) : session.answer text = .error (.rejected error) := by
  rw [answer, Query.read, refused]
  rfl

theorem resolve_agrees_with_self (session : Session) (query : Query Literal) :
    AgreesWith (session.resolve query) (session.resolve query) := by
  unfold resolve
  dsimp only
  split
  · exact .ok _
  · exact .error (.unknownFields _)

theorem answer_agrees_with_trimmed (session : Session) (text : String) :
    AgreesWith (session.answer text) (session.answer (trimmed text)) := by
  obtain ⟨query, first, second⟩ | ⟨error, other, first, second, fault⟩ := parse_trimmed_cases text
  · rw [answer_eq_of_parse first, answer_eq_of_parse second]
    exact session.resolve_agrees_with_self query.evaluate
  · rw [answer_eq_of_parse_error first, answer_eq_of_parse_error second]
    exact .error (.rejected fault)

theorem exists_error_of_reserved (session : Session) {line : String}
    (reserved : line ∈ reservedLines) : ∃ error, session.answer line = .error error := by
  have refused : ∀ line ∈ reservedLines, (parse line).toOption = none := by decide +kernel
  cases read : parse line with
  | error error => exact ⟨.rejected error, answer_eq_of_parse_error read⟩
  | ok query =>
      have unread := refused line reserved
      rw [read] at unread
      cases unread

theorem reply_to_trimmed_of_not_reserved {session : Session} {line : String}
    (free : line ∉ reservedLines) :
    session.replyToTrimmed line =
      match session.respond line with
      | .ok text => .output text
      | .error error => .complaint (error.message ++ "\n") := by
  simp only [reservedLines, List.mem_cons, List.not_mem_nil, or_false, not_or] at free
  rcases free with ⟨notEmpty, noExit, noQuit, noHelp, noFields⟩
  have noLeave : ¬(line = "exit" ∨ line = "quit") := by simp [noExit, noQuit]
  rw [replyToTrimmed, if_neg notEmpty, if_neg noLeave, if_neg noHelp]
  exact if_neg noFields

end Session

theorem split_lines_from_append {line : List UInt8} (unbroken : Delimited.lineFeed ∉ line)
    (begun rest : List UInt8) :
    splitLinesFrom begun (line ++ Delimited.lineFeed :: rest) =
      (begun.reverse ++ line ++ [Delimited.lineFeed]) :: splitLines rest := by
  induction line generalizing begun with
  | nil => simp [splitLinesFrom, splitLines]
  | cons byte line induction =>
      rw [List.mem_cons, not_or] at unbroken
      rw [List.cons_append, splitLinesFrom, if_neg (Ne.symm unbroken.1), induction unbroken.2]
      simp

def lineInput (line : String) : List UInt8 := Utf8.encode (line.toList ++ ['\n'])

theorem split_lines_line_input {line : String} (unbroken : '\n' ∉ line.toList) :
    splitLines (lineInput line) = [lineInput line] := by
  have isBreak : Utf8.encode ['\n'] = [Delimited.lineFeed] := rfl
  have ascii : '\n'.toNat < 128 := by decide
  have noFeed : asciiByte '\n' ∉ Utf8.encode line.toList :=
    mt (Utf8.mem_encode_iff ascii).1 unbroken
  have cut := split_lines_from_append noFeed [] []
  rw [lineInput, Utf8.encode_append, isBreak]
  exact cut

namespace Session

/-- The line break of a line is trimmed off together with the white space around it. -/
theorem trim_line (line : String) :
    String.ofList (trim (line.toList ++ ['\n'])) = trimmed line := by
  have lineBreak : ∀ character ∈ ['\n'], isWhitespace character = true :=
    List.forall_mem_singleton.2 (by decide)
  have noFront : ∀ character ∈ ([] : List Char), isWhitespace character = true := by simp
  have same : trim (line.toList ++ ['\n']) = trim line.toList :=
    trim_surrounded noFront lineBreak line.toList
  rw [same, trimmed]

theorem reply_to_line_input (session : Session) (line : String) :
    session.replyTo (lineInput line) = session.replyToTrimmed (trimmed line) := by
  rw [lineInput, reply_to_encode, trim_line]

theorem dialogue_line_input (session : Session) {line : String} (unbroken : '\n' ∉ line.toList)
    (free : trimmed line ∉ reservedLines) :
    session.dialogue false (lineInput line) =
      match session.respond (trimmed line) with
      | .ok text => ⟨text, "", false⟩
      | .error error => ⟨"", error.message ++ "\n", false⟩ := by
  rw [dialogue, split_lines_line_input unbroken, converse, reply_to_line_input,
    reply_to_trimmed_of_not_reserved free]
  cases session.respond (trimmed line) <;>
    simp [converse, Transcript.after, Transcript.ended, promptText]

theorem readable_line_input (session : Session) {line : String} (unbroken : '\n' ∉ line.toList) :
    (session.dialogue false (lineInput line)).invalidLine = false := by
  have readable := session.reply_to_trimmed_ne_unreadable (trimmed line)
  rw [dialogue, split_lines_line_input unbroken, converse, reply_to_line_input]
  cases reply : session.replyToTrimmed (trimmed line) with
  | unreadable => exact absurd reply readable
  | silent => rfl
  | leave => rfl
  | output text => rfl
  | complaint text => rfl

/-- A line is logged before it is complained about, so its log lines stand together, and they stand
where the other way of asking has them. -/
theorem exists_notices_line_input (session : Session) {line : String}
    (unbroken : '\n' ∉ line.toList) :
    ∃ texts : List String, session.notices (splitLines (lineInput line)) =
      (session.lineRecords (trimmed line)).map .record ++ texts.map .text := by
  have single : session.notices [lineInput line] = session.lineNotices (lineInput line) := by
    rw [notices]
    cases session.replyTo (lineInput line) <;> exact List.append_nil _
  rw [split_lines_line_input unbroken, single, lineInput, lineNotices, Utf8.decode_encode]
  simp only [trim_line]
  cases session.replyToTrimmed (trimmed line) with
  | complaint text => exact ⟨[text], rfl⟩
  | silent => exact ⟨[], rfl⟩
  | leave => exact ⟨[], rfl⟩
  | output text => exact ⟨[], rfl⟩
  | unreadable => exact ⟨[], rfl⟩

/-- A query is logged the same with white space around it and without. -/
theorem records_trimmed (session : Session) (text : String) :
    session.records (trimmed text) = session.records text := by
  unfold records Query.read
  obtain ⟨query, first, second⟩ | ⟨error, other, first, second, -⟩ := parse_trimmed_cases text
  · rw [first, second]
  · rw [first, second]
    rfl

end Session

namespace Run

/-- What a run gives when it logs nothing. Whether a query is answered or refused, and with which
texts, is settled here before any log line is put in front. -/
def plain (run : Run) : Outcome := ⟨run.exitCode, run.out, unlogged run.notices⟩

end Run

def Outcome.behind (log : String) (outcome : Outcome) : Outcome :=
  { outcome with err := log ++ outcome.err }

namespace Run

theorem outcome_eq_behind {run : Run} {records : List LogRecord} {texts : List String}
    (made : run.notices = records.map .record ++ texts.map .text) (logger : Logger)
    (threshold : LogLevel) :
    run.outcome logger threshold =
      run.plain.behind (logger.text threshold (records.map .record)) := by
  rw [outcome, Logger.text, made, Logger.text_from_append_texts, plain, made, unlogged_append,
    unlogged_records, String.empty_append]
  rfl

theorem outcome_eq_plain {logger : Logger} (bare : logger.filter = none) (run : Run) :
    run.outcome logger .warn = run.plain := by
  rw [outcome, Logger.text, Logger.text_from_eq_unlogged (Logger.writes_warn bare), plain]

end Run

/-- The outcomes of a query text that is given on the command line, and of the same text as the
only line of a dialogue. -/
structure AskedBothWays (session : Session) (text : String) (once typed : Outcome) : Prop where
  answered : once.exitCode = 0 → typed = ⟨0, once.out, ""⟩
  refused : once.exitCode ≠ 0 → once.exitCode = 1 ∧ once.out = ""
  explained : once.exitCode ≠ 0 → trimmed text ∉ Session.reservedLines →
    ∃ error other, session.answer text = .error error ∧
      session.answer (trimmed text) = .error other ∧ error.SameCause other ∧
      typed = ⟨0, "", other.message ++ "\n"⟩
  untouched : once.exitCode ≠ 0 → trimmed text ∉ Session.reservedLines → trimmed text = text →
    typed.err = once.err

namespace Session

theorem plain_run_none {session : Session} {input : List UInt8}
    (readable : (session.dialogue false input).invalidLine = false) :
    (session.run none input).plain =
      ⟨0, (session.dialogue false input).out, (session.dialogue false input).err⟩ := by
  rw [run, Run.ofTranscript, readable, if_neg Bool.false_ne_true, Run.plain,
    session.unlogged_notices false]
  rfl

theorem plain_run_answer {session : Session} {text : String} {answer : Answer}
    (answered : session.answer text = .ok answer) (input : List UInt8) :
    (session.run (some text) input).plain = ⟨0, session.render answer, ""⟩ := by
  simp only [run, respond, answered, Except.map, Run.plain, unlogged_records]

theorem plain_run_error {session : Session} {text : String} {error : QueryError}
    (failed : session.answer text = .error error) (input : List UInt8) :
    (session.run (some text) input).plain = ⟨1, "", error.message ++ "\n"⟩ := by
  simp only [run, respond, failed, Except.map, Run.plain, Run.failure, unlogged_append,
    unlogged_records, String.empty_append]
  exact congrArg (Outcome.mk 1 "") String.append_empty

theorem exists_notices_run (session : Session) (text : String) (input : List UInt8) :
    ∃ texts : List String, (session.run (some text) input).notices =
      (session.records text).map .record ++ texts.map .text := by
  dsimp only [run]
  cases session.respond text with
  | ok answer => exact ⟨[], (List.append_nil _).symm⟩
  | error error => exact ⟨[error.message ++ "\n"], rfl⟩

theorem notices_run_none {session : Session} {input : List UInt8}
    (readable : (session.dialogue false input).invalidLine = false) :
    (session.run none input).notices = session.notices (splitLines input) := by
  rw [run, Run.ofTranscript, readable, if_neg Bool.false_ne_true]

theorem plain_dialogue_line_input (session : Session) {line : String}
    (unbroken : '\n' ∉ line.toList) (free : trimmed line ∉ reservedLines) :
    (session.run none (lineInput line)).plain =
      match session.answer (trimmed line) with
      | .ok answer => ⟨0, session.render answer, ""⟩
      | .error error => ⟨0, "", error.message ++ "\n"⟩ := by
  have typed := session.dialogue_line_input unbroken free
  rw [plain_run_none (session.readable_line_input unbroken), typed, respond]
  cases session.answer (trimmed line) <;> rfl

theorem asked_alone_and_typed (session : Session) {text : String} (unbroken : '\n' ∉ text.toList)
    (input : List UInt8) :
    AskedBothWays session text (session.run (some text) input).plain
      (session.run none (lineInput text)).plain := by
  have agrees := session.answer_agrees_with_trimmed text
  generalize first : session.answer text = attempt at agrees
  generalize second : session.answer (trimmed text) = other at agrees
  cases agrees with
  | ok answer =>
      have free : trimmed text ∉ reservedLines := by
        intro reserved
        rcases session.exists_error_of_reserved reserved with ⟨error, failed⟩
        cases second.symm.trans failed
      rw [plain_run_answer first, plain_dialogue_line_input session unbroken free, second]
      exact ⟨fun _ => rfl, fun failed => absurd rfl failed, fun failed => absurd rfl failed,
        fun failed => absurd rfl failed⟩
  | @error error other cause =>
      have typed (free : trimmed text ∉ reservedLines) :
          (session.run none (lineInput text)).plain = ⟨0, "", other.message ++ "\n"⟩ := by
        rw [plain_dialogue_line_input session unbroken free, second]
      rw [plain_run_error first]
      constructor
      · exact fun succeeded => absurd succeeded Nat.one_ne_zero
      · exact fun _ => ⟨rfl, rfl⟩
      · exact fun _ free => ⟨error, other, first, second, cause, typed free⟩
      · intro _ free same
        rw [same, first] at second
        rw [typed free, ← Except.error.inj second]

end Session

namespace Arguments

/-- The run without the query of the command line, over an input of one line. -/
def typedOutcome (arguments : Arguments) (openFile : String → Except FileFault Opened)
    (line : String) (host : Host) : Outcome :=
  Invocation.perform openFile (lineInput line) (.run { arguments with query := none }) host

def logText (arguments : Arguments) (session : Session) (host : Host) (records : List LogRecord) :
    String :=
  host.logger.text arguments.threshold
    ((session.dataset.loadedFrom arguments.path :: records).map .record)

section Loaded

variable {arguments : Arguments} {openFile : String → Except FileFault Opened} {session : Session}
  {input : List UInt8}
  (loaded : arguments.session false (openFile arguments.path) = .ok session)

include loaded

theorem run_of_loaded :
    arguments.run false (openFile arguments.path) input =
      (session.run arguments.query input).after
        (session.dataset.loadedFrom arguments.path) := by
  simp only [Arguments.run, loaded]

theorem perform_eq_behind {records : List LogRecord} {texts : List String}
    (made : (session.run arguments.query input).notices =
      records.map .record ++ texts.map .text) (host : Host) :
    Invocation.perform openFile input (.run arguments) host =
      (session.run arguments.query input).plain.behind
        (arguments.logText session host records) := by
  let first := session.dataset.loadedFrom arguments.path
  have behind : ((session.run arguments.query input).after first).notices =
      (first :: records).map .record ++ texts.map .text := congrArg (Notice.record first :: ·) made
  simp only [Invocation.perform, run_of_loaded loaded]
  exact Run.outcome_eq_behind behind host.logger arguments.threshold

theorem perform_eq_plain (quiet : arguments.verbosity = 0) {host : Host}
    (bare : host.logger.filter = none) :
    Invocation.perform openFile input (.run arguments) host =
      (session.run arguments.query input).plain := by
  have threshold : arguments.threshold = .warn := by rw [Arguments.threshold, quiet]; rfl
  simp only [Invocation.perform, run_of_loaded loaded, threshold]
  exact Run.outcome_eq_plain bare _

end Loaded

/-- Over a file that loads, a query is answered the same on the command line and in a dialogue. A
run that is not asked to log writes nothing else, and one that is asked to has its log lines in
front, those of the query being the same both ways. The two runs may differ in what they take from
outside, such as the time. -/
theorem asked_both_ways {arguments : Arguments} {text : String}
    {openFile : String → Except FileFault Opened} {session : Session}
    (asked : arguments.query = some text) (unbroken : '\n' ∉ text.toList)
    (loaded : arguments.session false (openFile arguments.path) = .ok session)
    (input : List UInt8) (host later : Host) :
    (arguments.verbosity = 0 → host.logger.filter = none → later.logger.filter = none →
      AskedBothWays session text (Invocation.perform openFile input (.run arguments) host)
        (arguments.typedOutcome openFile text later)) ∧
    ∃ once typed, AskedBothWays session text once typed ∧
      Invocation.perform openFile input (.run arguments) host =
        once.behind (arguments.logText session host (session.records text)) ∧
      arguments.typedOutcome openFile text later =
        typed.behind (arguments.logText session later (session.lineRecords (trimmed text))) ∧
      session.records (trimmed text) = session.records text := by
  have both := session.asked_alone_and_typed unbroken input
  have loadedAgain : ({ arguments with query := none } : Arguments).session false
      (openFile arguments.path) = .ok session := loaded
  constructor
  · intro quiet bare bareLater
    rw [perform_eq_plain loaded quiet bare, asked, typedOutcome,
      perform_eq_plain loadedAgain quiet bareLater]
    exact both
  · obtain ⟨texts, made⟩ := session.exists_notices_run text input
    obtain ⟨typedTexts, typedMade⟩ := session.exists_notices_line_input unbroken
    refine ⟨_, _, both, ?_, ?_, session.records_trimmed text⟩
    · rw [← asked] at made ⊢
      exact perform_eq_behind loaded made host
    · rw [← Session.notices_run_none (session.readable_line_input unbroken)] at typedMade
      exact perform_eq_behind loadedAgain typedMade later

/-- An ideographic space before a query and a space after it; then a query that ends in a comma,
with a space before it, so that the two messages differ in the place; then the same with all log
lines. -/
theorem asked_both_ways_wide_space :
    let people := fun _ => Except.ok (Opened.file (Utf8.encode "name,age\nAna,30\n".toList))
    let asking (text : String) (verbosity : Nat) : Arguments :=
      ⟨"people.csv", ',', false, some text, .json, true, verbosity⟩
    let once (text : String) (verbosity : Nat) : Outcome :=
      Invocation.perform people [] (.run (asking text verbosity))
    let typed (text : String) (verbosity : Nat) : Outcome :=
      (asking text verbosity).typedOutcome people text .bare
    let found := "[\n  \x7b\n    \"name\": \"Ana\"\n  \x7d\n]\n"
    let missed := "Expected \"*\" or an identifier, found \",\"\n"
    let here := "Line 1, col 10:\n> 1 |  PROJECT ,\n               ^\n" ++ missed
    let there := "Line 1, col 9:\n> 1 | PROJECT ,\n              ^\n" ++ missed
    let loaded := "[INFO  projql::loader] loaded 1 rows with 2 fields from people.csv\n"
    let parsed := "[DEBUG projql] parsed query: PROJECT name\n"
    let kept := "[DEBUG projql::executor] `PROJECT name` kept 1 of 1 rows\n"
    let rejected := "[DEBUG projql::cli::session] rejected \"PROJECT ,\": "
    (once "\u3000PROJECT name " 0 = ⟨0, found, ""⟩ ∧
      typed "\u3000PROJECT name " 0 = ⟨0, found, ""⟩) ∧
    (once " PROJECT ," 0 = ⟨1, "", here⟩ ∧ typed " PROJECT ," 0 = ⟨0, "", there⟩ ∧
      ∃ error other, QueryError.SameCause error other ∧ other.message ++ "\n" = there) ∧
    (once "\u3000PROJECT name " 2 = ⟨0, found, loaded ++ parsed ++ kept⟩ ∧
      typed "\u3000PROJECT name " 2 = ⟨0, found, loaded ++ parsed ++ kept⟩) ∧
    once " PROJECT ," 2 = ⟨1, "", loaded ++ here⟩ ∧
      typed " PROJECT ," 2 = ⟨0, "", loaded ++ rejected ++ there ++ there⟩ := by
  intro people asking once typed found missed here there loaded parsed kept rejected
  have opened : (asking "" 0).session false (people "people.csv") =
      .ok ⟨⟨["name", "age"], [.ofList [("name", .string "Ana"), ("age", .coerce "30")]]⟩,
        .json, false⟩ := eq_ok_of_toOption (by decide +kernel)
  have asked (text : String) : (asking text 0).query = some text := rfl
  have answered : once "\u3000PROJECT name " 0 = ⟨0, found, ""⟩ := by decide +kernel
  have refused : once " PROJECT ," 0 = ⟨1, "", here⟩ := by decide +kernel
  have typedRefused : typed " PROJECT ," 0 = ⟨0, "", there⟩ := by decide +kernel
  have bothAnswered := (asked_both_ways (asked "\u3000PROJECT name ") (by decide) opened []
    .bare .bare).1 rfl rfl rfl
  have bothRefused := (asked_both_ways (asked " PROJECT ,") (by decide) opened []
    .bare .bare).1 rfl rfl rfl
  refine ⟨⟨answered, ?_⟩, ⟨refused, typedRefused, ?_⟩, ⟨?_, ?_⟩, ?_, ?_⟩
  · have same := bothAnswered.answered (congrArg Outcome.exitCode answered)
    exact same.trans (congrArg (Outcome.mk 0 · "") (congrArg Outcome.out answered))
  · obtain ⟨error, other, _, _, cause, message⟩ := bothRefused.explained
      (ne_of_eq_of_ne (congrArg Outcome.exitCode refused) Nat.one_ne_zero) (by decide +kernel)
    exact ⟨error, other, cause, congrArg Outcome.err (message.symm.trans typedRefused)⟩
  · decide +kernel
  · decide +kernel
  · decide +kernel
  · decide +kernel

end Arguments

end TableQuery
