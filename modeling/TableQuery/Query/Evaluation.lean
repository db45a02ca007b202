import TableQuery.Number.Notation
import TableQuery.Query.Parser
import TableQuery.Row
import TableQuery.Text.Utf8

/-!
From the text of a query to the rows that answer it. Constants become values, so that numbers
compare as numbers and strings as their UTF-8 bytes; values of different kinds do not compare, and
neither does an absent value. Only the grammar can refuse a text: whatever it accepts has a value.

A query is also written out again, with one space between its parts, names separated by a comma and
a space, and numbers with their shortest digits.
-/

namespace TableQuery

inductive Literal where
  | number (double : Binary64)
  | string (text : String)
  deriving DecidableEq

def Literal.text : Literal → String
  | number double => String.ofList (double.plain "inf".toList)
  | string text => "`" ++ text ++ "`"

/-- Digits that spell no number give NaN, with which nothing compares. The parser makes no such
constant, but a query can be built by hand. -/
def WrittenConstant.value : WrittenConstant → Literal
  | number negative magnitude =>
      let double := (readDouble? magnitude.toList).getD .nan
      .number (if negative then double.negate else double)
  | string body => .string body

def Query.evaluate (query : WrittenQuery) : Query Literal :=
  query.mapConstant WrittenConstant.value

def Condition.text (condition : Condition Literal) : String :=
  condition.field ++ " " ++ condition.comparator.spelling ++ " " ++ condition.constant.text

def filterText : Option (Condition Literal) → String
  | none => "true"
  | some condition => condition.text

def Query.text (query : Query Literal) : String :=
  "PROJECT " ++ query.fields.text ++
    match query.filter with
    | none => ""
    | some condition => " FILTER " ++ condition.text

def Query.read (text : String) : Except SyntaxError (Query Literal) :=
  (parse text).map Query.evaluate

def compareText (left right : String) : Ordering :=
  compare (Utf8.encode left.toList) (Utf8.encode right.toList)

def Value.compareTo? : Value → Literal → Option Ordering
  | .number value, .number literal => value.compare? literal
  | .string value, .string literal => some (compareText value literal)
  | _, _ => none

def Condition.holds (condition : Condition Literal) (row : Row) : Bool :=
  condition.comparator.accepts ((row.get condition.field).compareTo? condition.constant)

def Query.keeps (query : Query Literal) (row : Row) : Bool :=
  query.filter.all (·.holds row)

/-- The wildcard leaves a row as it is; a list of names builds a new one. -/
def Fields.select : Fields → Row → Row
  | wildcard, row => row
  | named names, row => row.project names

def Query.execute (query : Query Literal) (rows : List Row) : List Row :=
  (rows.filter query.keeps).map query.fields.select

end TableQuery
