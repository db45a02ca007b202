import TableQuery.Delimited.Dataset
import TableQuery.Query.Evaluation
import TableQuery.Report.Json
import TableQuery.Report.Table

/-!
A session answers query texts over one dataset. A query may only mention fields that the dataset
has; an answer has one column for each distinct field that the query keeps.
-/

namespace TableQuery

inductive OutputFormat where
  | table
  | json
  deriving DecidableEq, Repr

structure Session where
  dataset : Dataset
  format : OutputFormat
  coloured : Bool
  deriving DecidableEq

inductive QueryError where
  | rejected (error : SyntaxError)
  | unknownFields (names : List String)
  deriving DecidableEq, Repr

def QueryError.message : QueryError → String
  | rejected error => error.message
  | unknownFields names =>
      (if names.length = 1 then "Unknown field: " else "Unknown fields: ") ++
        ", ".intercalate names

structure Answer where
  query : Query Literal
  headers : List String
  rows : List Row
  deriving DecidableEq

namespace Session

def unknownFields (session : Session) (query : Query Literal) : List String :=
  query.referencedFields.filter fun name => !session.dataset.hasField name

def headers (session : Session) : Fields → List String
  | .wildcard => session.dataset.headers
  | .named names => collectMentions names

def answer (session : Session) (text : String) : Except QueryError Answer := do
  let query ← (Query.read text).mapError .rejected
  let unknown := session.unknownFields query
  if unknown.isEmpty then
    return ⟨query, session.headers query.fields, query.execute session.dataset.rows⟩
  else throw (.unknownFields unknown)

def render (session : Session) (answer : Answer) : String :=
  match session.format with
  | .table => Table.render session.coloured answer.headers answer.rows
  | .json => Json.render .indented answer.rows ++ "\n"

def respond (session : Session) (text : String) : Except QueryError String :=
  (session.answer text).map session.render

end Session

end TableQuery
