import TableQuery.Session.Dialogue

/-!
The error output of a run. Complaints stand there as they are, and between them log lines, which say
what was loaded, read, kept and refused. Records are made whatever level is asked for; a logger
decides which of them are written and how a line looks, because the environment and the time of day
have a say in that.
-/

namespace TableQuery

/-- How much is logged. No record is a warning, so that the lowest level, which is the one without
any option, writes nothing. -/
inductive LogLevel where
  | warn
  | info
  | debug
  deriving DecidableEq, Repr

namespace LogLevel

def ofVerbosity : Nat → LogLevel
  | 0 => warn
  | 1 => info
  | _ => debug

def rank : LogLevel → Nat
  | warn => 0
  | info => 1
  | debug => 2

def shows (threshold level : LogLevel) : Bool := level.rank ≤ threshold.rank

end LogLevel

inductive LogRecord where
  | loaded (rows fields : Nat) (path : String)
  | parsed (query : Query Literal)
  | kept (query : Query Literal) (count total : Nat)
  | rejected (line : String) (error : QueryError)
  deriving DecidableEq

/-- Between quotes a character stands for itself only if it can be printed. Which characters those
are depends on the version of Unicode, so it is left to the caller. -/
def escapeUnprintable (printable : Char → Bool) : Char → List Char
  | '\x00' => "\\0".toList
  | '\t' => "\\t".toList
  | '\n' => "\\n".toList
  | '\r' => "\\r".toList
  | '\x22' => "\\\"".toList
  | '\x5c' => "\\\\".toList
  | character =>
      if printable character then [character]
      else "\\u\x7b".toList ++ Nat.toDigits 16 character.toNat ++ ['\x7d']

def quotedPrintably (printable : Char → Bool) (text : String) : String :=
  quoted (String.ofList (text.toList.flatMap (escapeUnprintable printable)))

namespace LogRecord

def level : LogRecord → LogLevel
  | loaded .. => .info
  | _ => .debug

def origin : LogRecord → String
  | loaded .. => "projql::loader"
  | parsed _ => "projql"
  | kept .. => "projql::executor"
  | rejected .. => "projql::cli::session"

def message (printable : Char → Bool) : LogRecord → String
  | loaded rows fields path =>
      "loaded " ++ toString rows ++ " rows with " ++ toString fields ++ " fields from " ++ path
  | parsed query => "parsed query: " ++ query.text
  | kept query count total =>
      "`" ++ query.text ++ "` kept " ++ toString count ++ " of " ++ toString total ++ " rows"
  | rejected line error => "rejected " ++ quotedPrintably printable line ++ ": " ++ error.message

end LogRecord

inductive Notice where
  | text (text : String)
  | record (record : LogRecord)
  deriving DecidableEq

/-- What a log line takes from outside the program. A filter of the environment goes before the
level that the command line asks for. A line is made from the number of lines before it, in whose
place the real one has the time, and from the level, the origin and the message of its record. -/
structure Logger where
  filter : Option (LogRecord → Bool)
  line : Nat → LogLevel → String → String → String
  printable : Char → Bool

namespace Logger

def writes (logger : Logger) (threshold : LogLevel) (record : LogRecord) : Bool :=
  match logger.filter with
  | some keeps => keeps record
  | none => threshold.shows record.level

def textFrom (logger : Logger) (threshold : LogLevel) (count : Nat) : List Notice → String
  | [] => ""
  | .text text :: rest => text ++ logger.textFrom threshold count rest
  | .record record :: rest =>
      if logger.writes threshold record then
        logger.line count record.level record.origin (record.message logger.printable) ++
          logger.textFrom threshold (count + 1) rest
      else logger.textFrom threshold count rest

def text (logger : Logger) (threshold : LogLevel) (notices : List Notice) : String :=
  logger.textFrom threshold 0 notices

def bare : Logger where
  filter := none
  line := fun _ level origin message =>
    let name := match level with
      | .warn => "WARN "
      | .info => "INFO "
      | .debug => "DEBUG"
    "[" ++ name ++ " " ++ origin ++ "] " ++ message ++ "\n"
  printable := fun character => 32 ≤ character.toNat && character.toNat != 127

end Logger

def Dataset.loadedFrom (dataset : Dataset) (path : String) : LogRecord :=
  .loaded dataset.rows.length dataset.headers.length path

namespace Session

/-- A query is logged when it has been read, and again when it has been run, which happens only if
it mentions no unknown field. -/
def records (session : Session) (text : String) : List LogRecord :=
  match Query.read text with
  | .error _ => []
  | .ok query =>
      let ran := LogRecord.kept query (query.execute session.dataset.rows).length
        session.dataset.rows.length
      if (session.unknownFields query).isEmpty then [.parsed query, ran] else [.parsed query]

/-- Lines that a dialogue takes for something else than a query. -/
def reservedLines : List String := ["", "exit", "quit", "help", "fields"]

/-- The records of a line without the white space around it. A dialogue logs a refusal, too, before
it complains, and the line stands in that record as it was read. -/
def lineRecords (session : Session) (line : String) : List LogRecord :=
  if line ∈ reservedLines then []
  else
    match session.answer line with
    | .ok _ => session.records line
    | .error error => session.records line ++ [.rejected line error]

def lineNotices (session : Session) (line : List UInt8) : List Notice :=
  match Utf8.decode line with
  | .error _ => []
  | .ok text =>
      let trimmed := String.ofList (trim text)
      let complaint := match session.replyToTrimmed trimmed with
        | .complaint text => [Notice.text text]
        | _ => []
      (session.lineRecords trimmed).map .record ++ complaint

def notices (session : Session) : List (List UInt8) → List Notice
  | [] => []
  | line :: lines =>
      session.lineNotices line ++
        match session.replyTo line with
        | .leave => []
        | .unreadable => []
        | _ => session.notices lines

end Session

end TableQuery
