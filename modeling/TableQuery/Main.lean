import TableQuery.CommandLine.Program

/-!
The program. Files and the terminal are reached from here only; what is written is decided by the
library.
-/

namespace TableQuery

/-- Reading a directory fails with error 21 and walking through a file with error 20, while the
runtime reports both as one kind of error. -/
def openedOfError : IO.Error → Except FileFault Opened
  | .inappropriateType _ code _ => if code = 21 then .ok .directory else .error .notDirectory
  | .permissionDenied .. => .error .permissionDenied
  | .invalidArgument .. => .error .nameTooLong
  | _ => .error .notFound

def openPath (path : String) : IO (Except FileFault Opened) := do
  if path.toList.contains '\x00' then return .error .zeroByte
  try return .ok (.file (← IO.FS.readBinFile path).toList)
  catch error => return openedOfError error

partial def readAll (input : IO.FS.Stream) (begun : ByteArray) : IO ByteArray := do
  let chunk ← input.read 65536
  if chunk.isEmpty then return begun else readAll input (begun ++ chunk)

def emit (outcome : Outcome) : IO UInt32 := do
  (← IO.getStdout).putStr outcome.out
  (← IO.getStderr).putStr outcome.err
  return UInt32.ofNat outcome.exitCode

def emitRun (arguments : Arguments) (run : Run) : IO UInt32 :=
  emit (run.outcome .bare arguments.threshold)

/-- A dialogue with a person, who sees each reply before the next line is read. -/
partial def interact (arguments : Arguments) (session : Session) : IO UInt32 := do
  let output ← IO.getStdout
  output.putStr (promptText true)
  output.flush
  let line ← (← IO.getStdin).getLine
  if line.isEmpty then return 0
  let bytes := line.toUTF8.toList
  (← IO.getStderr).putStr (Logger.bare.text arguments.threshold (session.lineNotices bytes))
  match session.replyTo bytes with
  | .leave => return 0
  | .unreadable => emitRun arguments (.failure "" [] .invalidInput)
  | .output text => output.putStr text; interact arguments session
  | _ => interact arguments session

def greeting (path : String) : String :=
  "Loaded " ++ path ++ ". Type 'help' for the query syntax, 'exit' to leave.\n"

def greet (arguments : Arguments) (session : Session) : IO UInt32 := do
  let loaded := Notice.record (session.dataset.loadedFrom arguments.path)
  (← IO.getStderr).putStr (Logger.bare.text arguments.threshold [loaded])
  (← IO.getStdout).putStr (greeting arguments.path)
  interact arguments session

def start (arguments : Arguments) : IO UInt32 := do
  let coloured ← (← IO.getStdout).isTty
  let opened ← openPath arguments.path
  let input ← IO.getStdin
  match arguments.session coloured opened, arguments.query with
  | .ok session, none =>
      if ← input.isTty then greet arguments session
      else emitRun arguments (arguments.run coloured opened (← readAll input .empty).toList)
  | _, _ => emitRun arguments (arguments.run coloured opened [])

end TableQuery

open TableQuery in
def main (arguments : List String) : IO UInt32 := do
  match Invocation.ofArguments arguments with
  | .run arguments => start arguments
  | invocation => emit (invocation.perform (fun _ => .error .notFound) [])
