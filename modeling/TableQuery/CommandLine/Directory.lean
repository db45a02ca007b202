import TableQuery.Delimited.Dataset

/-!
Opening a file by its path, and loading a dataset from it. A directory of plain files is enough to
say how a path is walked: each component is looked up in turn, `.` stays, `..` leaves the directory,
and nothing can be found inside a file.
-/

namespace TableQuery

inductive FileFault where
  | notFound
  | notDirectory
  | nameTooLong
  | permissionDenied
  | zeroByte
  deriving DecidableEq, Repr

def systemError (reason : String) (number : Nat) : String :=
  reason ++ " (os error " ++ toString number ++ ")"

def FileFault.text : FileFault → String
  | notFound => systemError "No such file or directory" 2
  | notDirectory => systemError "Not a directory" 20
  | nameTooLong => systemError "File name too long" 36
  | permissionDenied => systemError "Permission denied" 13
  | zeroByte => "file name contained an unexpected NUL byte"

/-- What a path leads to. A directory can be opened, but not read. -/
inductive Opened where
  | file (bytes : List UInt8)
  | directory
  deriving DecidableEq, Repr

inductive LoadError where
  | unopened (path : String) (fault : FileFault)
  | directory
  | data (error : ReadError)
  deriving DecidableEq, Repr

def LoadError.message : LoadError → String
  | unopened path fault => "cannot read " ++ path ++ ": " ++ fault.text
  | directory => malformed (systemError "Is a directory" 21)
  | data error => error.message

def Dataset.load (options : ReadOptions) (path : String) :
    Except FileFault Opened → Except LoadError Dataset
  | .error fault => .error (.unopened path fault)
  | .ok .directory => .error .directory
  | .ok (.file bytes) => (Dataset.read options bytes).mapError .data

abbrev Directory := List (String × List UInt8)

namespace Directory

def longestName : Nat := 255
def longestPath : Nat := 4095

/-- Walks outside of the directory. Nothing is known of what lies there but the way up, so every
name is missing unless it is too long to be one. -/
def walkOutside : List String → Except FileFault Opened
  | [] => .ok .directory
  | name :: rest =>
      if name = "" ∨ name = "." ∨ name = ".." then walkOutside rest
      else if longestName < name.utf8ByteSize then .error .nameTooLong
      else .error .notFound

/-- A path with a slash after a file asks for a directory in the file's place, so it fails in
another way than a name that is missing. -/
def walk (directory : Directory) : List String → Except FileFault Opened
  | [] => .ok .directory
  | name :: rest =>
      if name = "" ∨ name = "." then directory.walk rest
      else if name = ".." then walkOutside rest
      else if longestName < name.utf8ByteSize then .error .nameTooLong
      else
        match directory.lookup name with
        | none => .error .notFound
        | some bytes => if rest.isEmpty then .ok (.file bytes) else .error .notDirectory

def components (path : List Char) : List String := (path.splitOn '/').map String.ofList

def lookUp (directory : Directory) (path : String) : Except FileFault Opened :=
  if path.toList.contains '\x00' then .error .zeroByte
  else if path = "" then .error .notFound
  else if longestPath < path.utf8ByteSize then .error .nameTooLong
  else
    match components path.toList with
    | "" :: rest => walkOutside rest
    | names => directory.walk names

end Directory

end TableQuery
