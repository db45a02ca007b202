import TableQuery.Query.Basic

/-!
Tokens of the query language, and the symbols that its grammar can ask for. A symbol is a kind of
token, without the text of a name, number or string; the end of the query is a symbol and no token.
-/

namespace TableQuery

inductive Token where
  | project
  | filter
  | star
  | comma
  | comparator (sign : Comparator)
  | identifier (name : String)
  | number (numeral : String)
  | string (body : String)
  deriving DecidableEq, Repr

inductive Symbol where
  | project
  | filter
  | star
  | comma
  | comparator (sign : Comparator)
  | identifier
  | number
  | string
  | endOfInput
  deriving DecidableEq, Repr

def quoted (text : String) : String := "\"" ++ text ++ "\""

namespace Symbol

def text : Symbol → String
  | project => quoted "PROJECT"
  | filter => quoted "FILTER"
  | star => quoted "*"
  | comma => quoted ","
  | comparator sign => quoted sign.spelling
  | identifier => "an identifier"
  | number => "a number"
  | string => "a string literal"
  | endOfInput => "end of input"

end Symbol

namespace Token

def symbol : Token → Symbol
  | project => .project
  | filter => .filter
  | star => .star
  | comma => .comma
  | comparator sign => .comparator sign
  | identifier _ => .identifier
  | number _ => .number
  | string _ => .string

def text : Token → String
  | identifier name => "identifier " ++ quoted name
  | number numeral => "number " ++ numeral
  | string body => "string `" ++ body ++ "`"
  | token => token.symbol.text

end Token

end TableQuery
