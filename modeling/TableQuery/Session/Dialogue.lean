import TableQuery.Session.Basic
import TableQuery.Session.Help

/-!
A dialogue reads its input line by line. A line is a command, empty, or a query; what one line gives
does not depend on the lines before it. The input ends the dialogue, and so do a command to leave
and a line that is not UTF-8.
-/

namespace TableQuery

/-- What becomes of one line; `unreadable` is the reply to bytes that are not UTF-8. -/
inductive Reply where
  | silent
  | leave
  | output (text : String)
  | complaint (text : String)
  | unreadable
  deriving DecidableEq, Repr

namespace Session

def fieldsText (session : Session) : String := ", ".intercalate session.dataset.headers ++ "\n"

def replyToTrimmed (session : Session) (line : String) : Reply :=
  if line = "" then .silent
  else if line = "exit" ∨ line = "quit" then .leave
  else if line = "help" then .output helpText
  else if line = "fields" then .output session.fieldsText
  else
    match session.respond line with
    | .ok text => .output text
    | .error error => .complaint (error.message ++ "\n")

def replyTo (session : Session) (line : List UInt8) : Reply :=
  match Utf8.decode line with
  | .ok text => session.replyToTrimmed (String.ofList (trim text))
  | .error _ => .unreadable

theorem reply_to_trimmed_ne_unreadable (session : Session) (line : String) :
    session.replyToTrimmed line ≠ .unreadable := by
  rw [replyToTrimmed]
  repeat' split
  all_goals simp

theorem reply_to_encode (session : Session) (text : List Char) :
    session.replyTo (Utf8.encode text) = session.replyToTrimmed (String.ofList (trim text)) := by
  rw [replyTo, Utf8.decode_encode]

end Session

structure Transcript where
  out : String
  err : String
  invalidLine : Bool
  deriving DecidableEq, Repr

namespace Transcript

def ended : Transcript := ⟨"", "", false⟩

def broken : Transcript := ⟨"", "", true⟩

def after (out err : String) (rest : Transcript) : Transcript :=
  { rest with out := out ++ rest.out, err := err ++ rest.err }

end Transcript

/-- Cuts after every line feed; the line that has begun is given in reverse. -/
def splitLinesFrom (begun : List UInt8) : List UInt8 → List (List UInt8)
  | [] => if begun.isEmpty then [] else [begun.reverse]
  | byte :: rest =>
      if byte = Delimited.lineFeed then (byte :: begun).reverse :: splitLinesFrom [] rest
      else splitLinesFrom (byte :: begun) rest

/-- The lines with their line feeds. The last line may lack it, and no line is empty, because an
empty piece stands for the end of the input. -/
def splitLines (bytes : List UInt8) : List (List UInt8) := splitLinesFrom [] bytes

def promptText (prompting : Bool) : String := if prompting then "> " else ""

namespace Session

/-- The prompt is written before each line, and once more before the end of the input is met, since
only reading tells that there is no further line. -/
def converse (session : Session) (prompting : Bool) : List (List UInt8) → Transcript
  | [] => .after (promptText prompting) "" .ended
  | line :: lines =>
      .after (promptText prompting) "" <|
        match session.replyTo line with
        | .leave => .ended
        | .unreadable => .broken
        | .silent => session.converse prompting lines
        | .output reply => .after reply "" (session.converse prompting lines)
        | .complaint reply => .after "" reply (session.converse prompting lines)

def dialogue (session : Session) (prompting : Bool) (input : List UInt8) : Transcript :=
  session.converse prompting (splitLines input)

end Session

end TableQuery
