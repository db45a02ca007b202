import TableQuery.CommandLine.Arguments
import TableQuery.CommandLine.Directory
import TableQuery.Session.Journal

/-!
A whole run of the program: load the file, then answer the query of the command line, or hold a
dialogue over the standard input. A failure is written to the error output and gives exit code 1, a
command line that does not fit gives 2.
-/

namespace TableQuery

inductive ProgramError where
  | invalidDelimiter (character : Char)
  | load (error : LoadError)
  | query (error : QueryError)
  | invalidInput
  deriving DecidableEq, Repr

def invalidInputText : String := "stream did not contain valid UTF-8"

def ProgramError.message : ProgramError → String
  | invalidDelimiter character =>
      "Delimiter must be a single ASCII character, got '" ++ character.toString ++ "'"
  | load error => error.message
  | query error => error.message
  | invalidInput => "IO error: " ++ invalidInputText

structure Outcome where
  exitCode : Nat
  out : String
  err : String
  deriving DecidableEq, Repr

/-- What a run has done, whatever is logged of it. The error output is kept in the pieces that it is
made of, since it is decided elsewhere which log lines stand between them. -/
structure Run where
  exitCode : Nat
  out : String
  notices : List Notice
  deriving DecidableEq

namespace Run

def failure (out : String) (notices : List Notice) (error : ProgramError) : Run :=
  ⟨1, out, notices ++ [.text (error.message ++ "\n")]⟩

def ofTranscript (transcript : Transcript) (notices : List Notice) : Run :=
  if transcript.invalidLine then failure transcript.out notices .invalidInput
  else ⟨0, transcript.out, notices⟩

def after (record : LogRecord) (run : Run) : Run :=
  { run with notices := .record record :: run.notices }

def outcome (logger : Logger) (threshold : LogLevel) (run : Run) : Outcome :=
  ⟨run.exitCode, run.out, logger.text threshold run.notices⟩

end Run

namespace Session

def run (session : Session) (query : Option String) (input : List UInt8) : Run :=
  match query with
  | none => .ofTranscript (session.dialogue false input) (session.notices (splitLines input))
  | some text =>
      let notices := (session.records text).map Notice.record
      match session.respond text with
      | .ok answer => ⟨0, answer, notices⟩
      | .error error => .failure "" notices (.query error)

end Session

namespace Arguments

def session (arguments : Arguments) (coloured : Bool) (opened : Except FileFault Opened) :
    Except ProgramError Session := do
  let some delimiter := delimiterByte? arguments.delimiter
    | throw (.invalidDelimiter arguments.delimiter)
  let dataset ← (Dataset.load ⟨delimiter, arguments.trim⟩ arguments.path opened).mapError .load
  return ⟨dataset, arguments.format, coloured && !arguments.plain⟩

def run (arguments : Arguments) (coloured : Bool) (opened : Except FileFault Opened)
    (input : List UInt8) : Run :=
  match arguments.session coloured opened with
  | .ok session =>
      (session.run arguments.query input).after (session.dataset.loadedFrom arguments.path)
  | .error error => .failure "" [] error

def threshold (arguments : Arguments) : LogLevel := .ofVerbosity arguments.verbosity

end Arguments

def versionText : String := "projql 0.1.0\n"

/-- What a run takes from outside the program. The help and what is said of a command line that does
not fit are generated from the declared options, so they are given and not modelled. -/
structure Host where
  help : String
  usage : String
  logger : Logger

def Host.bare : Host := ⟨"", "", .bare⟩

/-- A run whose outputs and input are no terminal, so that nothing is coloured and no prompt is
written; `openFile` says what a path leads to. -/
def Invocation.perform (openFile : String → Except FileFault Opened) (input : List UInt8)
    (invocation : Invocation) (host : Host := .bare) : Outcome :=
  match invocation with
  | misuse => ⟨2, "", host.usage⟩
  | version => ⟨0, versionText, ""⟩
  | help => ⟨0, host.help, ""⟩
  | run arguments =>
      (arguments.run false (openFile arguments.path) input).outcome host.logger arguments.threshold

end TableQuery
