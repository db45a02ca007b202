import TableQuery.Text.CharacterClass
import TableQuery.Number.Radix
import TableQuery.Number.Notation

/-!
Cell values. Text that spells a number becomes that number; every other text is kept as it is,
white space included.
-/

namespace TableQuery

inductive Value where
  | number (double : Binary64)
  | string (text : String)
  | absent
  deriving DecidableEq

def readNumber? (text : List Char) : Option Binary64 :=
  let (negative, unsigned) := splitSign text
  if unsigned = "Infinity".toList then some (.infinite negative)
  else
    match Decimal.read? unsigned with
    | some decimal => some (decimal.toBinary64 negative)
    | none => readRadixNumeral? text

namespace Value

def coerce (raw : String) : Value :=
  match readNumber? (trim raw.toList) with
  | some double => .number double
  | none => .string raw

def text : Value → String
  | number double => String.ofList (double.plain "Infinity".toList)
  | string text => text
  | absent => "undefined"

def kind : Value → String
  | number _ => "number"
  | string _ => "string"
  | absent => "absent"

def isAbsent : Value → Bool
  | absent => true
  | _ => false

def asNumber? : Value → Option Binary64
  | number double => some double
  | _ => none

def asString? : Value → Option String
  | string text => some text
  | _ => none

/-- Equality in which numbers compare as numbers: both zeros are equal and NaN equals nothing. It is
not the equality of values, by which a row could be rewritten. -/
def equals : Value → Value → Bool
  | number left, number right => left.equals right
  | string left, string right => left == right
  | absent, absent => true
  | _, _ => false

end Value

end TableQuery
