/-!
The texts that explain the query language.
-/

namespace TableQuery

def grammarLines : List String :=
  ["Query         ::= \"PROJECT\" Fields (\"FILTER\" Condition)?",
   "Fields        ::= \"*\" | FieldList",
   "FieldList     ::= Identifier (\",\" Identifier)*",
   "Condition     ::= Identifier Comparator Value",
   "Comparator    ::= \"=\" | \">=\" | \"<=\" | \">\" | \"<\"",
   "Value         ::= NumberLiteral | StringLiteral",
   "NumberLiteral ::= \"-\"? Digit+ (\".\" Digit+)?",
   "StringLiteral ::= \"`\" AnyCharExceptBacktick* \"`\"",
   "Identifier    ::= Letter (Letter | Digit | \"_\")*"]

def grammarText : String := "\n".intercalate grammarLines

def helpLines : List String :=
  ["QUERIES",
   "",
   "  PROJECT <fields> [FILTER <field> <comparator> <value>]",
   "",
   "  PROJECT *                          every field of every row",
   "  PROJECT name, age                  only these fields, in this order",
   "  PROJECT * FILTER age > 26          rows where age is greater than 26",
   "  PROJECT age FILTER name = `Maria`  strings go between backticks",
   "",
   "  Comparators: =  >  >=  <  <=",
   "  Numbers compare numerically, strings lexicographically. A number never",
   "  matches a string (and the reverse), and a row without the field never",
   "  matches.",
   "",
   "GRAMMAR",
   ""] ++ grammarLines ++
  ["",
   "COMMANDS",
   "",
   "  help          Show this help",
   "  fields        List the dataset's fields",
   "  exit, quit    Leave"]

def helpText : String := String.join (helpLines.map (· ++ "\n"))

end TableQuery
