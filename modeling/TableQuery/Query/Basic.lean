/-!
Queries: which fields to keep, and at most one comparison that a row has to satisfy. The type of the
constant is a parameter, because a query is first read with its constants as written and then given
constants as values.
-/

namespace TableQuery

section FirstMention

variable {Item : Type} [DecidableEq Item]

def noteMention (listed : List Item) (item : Item) : List Item :=
  if item ∈ listed then listed else listed ++ [item]

def collectMentions (items : List Item) : List Item := items.foldl noteMention []

end FirstMention

inductive Comparator where
  | equal
  | greater
  | greaterEqual
  | less
  | lessEqual
  deriving DecidableEq, Repr

namespace Comparator

def spelling : Comparator → String
  | equal => "="
  | greater => ">"
  | greaterEqual => ">="
  | less => "<"
  | lessEqual => "<="

/-- Operands that cannot be ordered satisfy no comparator, the inclusive ones too: a value that is
not less than another need not be at least as large. -/
def accepts : Comparator → Option Ordering → Bool
  | _, none => false
  | equal, some ordering => ordering == .eq
  | greater, some ordering => ordering == .gt
  | greaterEqual, some ordering => ordering != .lt
  | less, some ordering => ordering == .lt
  | lessEqual, some ordering => ordering != .gt

@[simp] theorem accepts_none (sign : Comparator) : sign.accepts none = false := by
  cases sign <;> rfl

end Comparator

inductive Fields where
  | wildcard
  | named (names : List String)
  deriving DecidableEq, Repr

structure Condition (Constant : Type) where
  field : String
  comparator : Comparator
  constant : Constant
  deriving DecidableEq, Repr

structure Query (Constant : Type) where
  fields : Fields
  filter : Option (Condition Constant)
  deriving DecidableEq, Repr

namespace Fields

def isWildcard : Fields → Bool
  | wildcard => true
  | named _ => false

def names : Fields → List String
  | wildcard => []
  | named names => names

def text : Fields → String
  | wildcard => "*"
  | named names => ", ".intercalate names

end Fields

namespace Query

variable {Constant Other : Type}

def mapConstant (change : Constant → Other) (query : Query Constant) : Query Other where
  fields := query.fields
  filter := query.filter.map fun condition =>
    ⟨condition.field, condition.comparator, change condition.constant⟩

def referencedFields (query : Query Constant) : List String :=
  collectMentions (query.fields.names ++ (query.filter.map Condition.field).toList)

end Query

end TableQuery
