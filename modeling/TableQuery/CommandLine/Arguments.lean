import TableQuery.Session.Basic

/-!
Command line arguments. Options with a value and switches may stand anywhere before `--`; every
option but the one for verbosity is given at most once, and there is exactly one path. Arguments are
taken in order, and the first one that does not fit decides.
-/

namespace TableQuery

structure Arguments where
  path : String
  delimiter : Char
  trim : Bool
  query : Option String
  format : OutputFormat
  plain : Bool
  verbosity : Nat
  deriving DecidableEq, Repr

inductive Invocation where
  | run (arguments : Arguments)
  | version
  | help
  | misuse
  deriving DecidableEq, Repr

inductive ValueOption where
  | delimiter
  | query
  | format
  deriving DecidableEq, Repr

inductive Switch where
  | trim
  | plain
  | verbose
  | version
  | help
  deriving DecidableEq, Repr

inductive OptionKind where
  | valued (option : ValueOption)
  | switch (switch : Switch)
  | unknown
  deriving DecidableEq, Repr

def longOption (name : String) : OptionKind :=
  if name = "delimiter" then .valued .delimiter
  else if name = "query" then .valued .query
  else if name = "format" then .valued .format
  else if name = "trim" then .switch .trim
  else if name = "no-color" then .switch .plain
  else if name = "verbose" then .switch .verbose
  else if name = "version" then .switch .version
  else if name = "help" then .switch .help
  else .unknown

def shortOption : Char → OptionKind
  | 'd' => .valued .delimiter
  | 'q' => .valued .query
  | 'v' => .switch .verbose
  | 'V' => .switch .version
  | 'h' => .switch .help
  | _ => .unknown

structure Given where
  path : Option String
  delimiter : Option Char
  query : Option String
  format : Option OutputFormat
  trim : Bool
  plain : Bool
  verbosity : Nat
  deriving DecidableEq, Repr

namespace Given

def nothing : Given := ⟨none, none, none, none, false, false, 0⟩

def setPath (given : Given) (path : String) : Option Given :=
  if given.path.isSome ∨ path = "" then none else some { given with path := some path }

def formatOfName? (name : String) : Option OutputFormat :=
  if name = "table" then some .table
  else if name = "json" then some .json
  else none

def setValue (given : Given) (option : ValueOption) (value : List Char) : Option Given :=
  match option with
  | .delimiter =>
      match value with
      | [character] =>
          if given.delimiter.isSome then none else some { given with delimiter := some character }
      | _ => none
  | .query =>
      if given.query.isSome then none else some { given with query := some (String.ofList value) }
  | .format => do
      let format ← formatOfName? (String.ofList value)
      if given.format.isSome then none else some { given with format := some format }

def finish (given : Given) : Invocation :=
  match given.path with
  | none => .misuse
  | some path => .run
      { path, delimiter := given.delimiter.getD ',', trim := given.trim, query := given.query,
        format := given.format.getD .table, plain := given.plain, verbosity := given.verbosity }

end Given

inductive Advance where
  | next (given : Given)
  | awaiting (option : ValueOption) (given : Given)
  | stop (invocation : Invocation)
  deriving DecidableEq, Repr

namespace Advance

def ofOption : Option Given → Advance
  | some given => next given
  | none => stop .misuse

end Advance

namespace Given

def applySwitch (given : Given) : Switch → Advance
  | .trim => if given.trim then .stop .misuse else .next { given with trim := true }
  | .plain => if given.plain then .stop .misuse else .next { given with plain := true }
  | .verbose => .next { given with verbosity := given.verbosity + 1 }
  | .version => .stop .version
  | .help => .stop .help

/-- An argument after two dashes; a value may follow an equals sign. -/
def long (given : Given) (text : List Char) : Advance :=
  let name := String.ofList (text.takeWhile (· != '='))
  let value := text.dropWhile (· != '=')
  match longOption name, value with
  | .valued option, [] => .awaiting option given
  | .valued option, _ :: value => .ofOption (given.setValue option value)
  | .switch switch, [] => given.applySwitch switch
  | _, _ => .stop .misuse

/-- Letters after one dash. The rest after the letter of an option with a value is its value, with
or without an equals sign in front. -/
def cluster (given : Given) : List Char → Advance
  | [] => .next given
  | letter :: rest =>
      match shortOption letter with
      | .unknown => .stop .misuse
      | .valued option =>
          match rest with
          | [] => .awaiting option given
          | '=' :: value => .ofOption (given.setValue option value)
          | value => .ofOption (given.setValue option value)
      | .switch switch =>
          match given.applySwitch switch with
          | .next after => after.cluster rest
          | other => other

def argument (given : Given) (text : String) : Advance :=
  match text.toList with
  | '-' :: '-' :: rest => given.long rest
  | '-' :: letter :: rest => given.cluster (letter :: rest)
  | _ => .ofOption (given.setPath text)

/-- After `--` every argument is a path, also one that begins with a dash. There is still only one
path, so a second one makes the command line unfit. -/
def readPaths (given : Given) : List String → Invocation
  | [] => given.finish
  | path :: rest =>
      match given.setPath path with
      | some after => after.readPaths rest
      | none => .misuse

/-- A value given as an argument of its own does not begin with a dash, because it would be taken
for an option; a lone dash is no option, so it may be a value. -/
def isValue (text : String) : Bool := text = "-" || text.toList.head? != some '-'

def read (awaiting : Option ValueOption) (given : Given) : List String → Invocation
  | [] => if awaiting.isSome then .misuse else given.finish
  | text :: rest =>
      match awaiting with
      | some option =>
          if isValue text then
            match given.setValue option text.toList with
            | some after => after.read none rest
            | none => .misuse
          else .misuse
      | none =>
          if text = "--" then given.readPaths rest
          else
            match given.argument text with
            | .next after => after.read none rest
            | .awaiting option after => after.read (some option) rest
            | .stop invocation => invocation

end Given

def Invocation.ofArguments (arguments : List String) : Invocation :=
  Given.nothing.read none arguments

end TableQuery
