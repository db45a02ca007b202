import TableQuery.Query.Basic
import TableQuery.Query.TokenStream

/-!
The query grammar as an automaton over tokens. A state says how much of a query has been read, holds
the part that is known already, and determines which symbols may follow, in the order in which they
are tried.

    Query     ::= "PROJECT" Fields ("FILTER" Condition)?
    Fields    ::= "*" | Identifier ("," Identifier)*
    Condition ::= Identifier Comparator (NumberLiteral | StringLiteral)
-/

namespace TableQuery

/-- A constant as the query spells it; the minus sign of a number stands apart from its digits. -/
inductive WrittenConstant where
  | number (negative : Bool) (magnitude : String)
  | string (body : String)
  deriving DecidableEq, Repr

abbrev WrittenQuery := Query WrittenConstant

def WrittenConstant.ofNumeral (numeral : String) : WrittenConstant :=
  match numeral.toList with
  | '-' :: magnitude => .number true (String.ofList magnitude)
  | _ => .number false numeral

inductive Progress where
  | beforeProject
  | beforeFields
  | afterComma (names : List String)
  | afterName (names : List String)
  | afterStar
  | beforeConditionField (fields : Fields)
  | beforeComparator (fields : Fields) (field : String)
  | beforeConstant (fields : Fields) (field : String) (comparator : Comparator)
  | complete (query : WrittenQuery)
  deriving DecidableEq, Repr

namespace Progress

/-- The symbols that may follow, in groups. The symbols of one group are tried together, so an error
that wants one of them wants all of them. -/
def wanted : Progress → List (List Symbol)
  | beforeProject => [[.project]]
  | beforeFields => [[.star], [.identifier]]
  | afterComma _ => [[.identifier]]
  | afterName _ => [[.comma], [.filter], [.endOfInput]]
  | afterStar => [[.filter], [.endOfInput]]
  | beforeConditionField _ => [[.identifier]]
  | beforeComparator _ _ =>
      [[.comparator .equal, .comparator .greaterEqual, .comparator .lessEqual,
        .comparator .greater, .comparator .less]]
  | beforeConstant _ _ _ => [[.number], [.string]]
  | complete _ => [[.endOfInput]]

def expected (progress : Progress) : List Symbol := progress.wanted.flatten

/-- The symbols that are tried in vain before the given one. They stay noted only as long as no
token has been passed. -/
def missed (progress : Progress) (symbol : Symbol) : List Symbol :=
  (progress.wanted.takeWhile fun group => !group.contains symbol).flatten

def step : Progress → Token → Option Progress
  | beforeProject, .project => some beforeFields
  | beforeFields, .star => some afterStar
  | beforeFields, .identifier name => some (afterName [name])
  | afterComma names, .identifier name => some (afterName (names ++ [name]))
  | afterName names, .comma => some (afterComma names)
  | afterName names, .filter => some (beforeConditionField (.named names))
  | afterStar, .filter => some (beforeConditionField .wildcard)
  | beforeConditionField fields, .identifier name => some (beforeComparator fields name)
  | beforeComparator fields field, .comparator sign => some (beforeConstant fields field sign)
  | beforeConstant fields field sign, .number numeral =>
      some (complete ⟨fields, some ⟨field, sign, .ofNumeral numeral⟩⟩)
  | beforeConstant fields field sign, .string body =>
      some (complete ⟨fields, some ⟨field, sign, .string body⟩⟩)
  | _, _ => none

/-- The query that has been read when the text ends here, if the text may end here. -/
def finish? : Progress → Option WrittenQuery
  | afterName names => some ⟨.named names, none⟩
  | afterStar => some ⟨.wildcard, none⟩
  | complete query => some query
  | _ => none

theorem isSome_step_iff (progress : Progress) (token : Token) :
    (progress.step token).isSome ↔ token.symbol ∈ progress.expected := by
  cases progress <;> cases token <;> simp [step, expected, wanted, Token.symbol]
  all_goals rename_i sign; cases sign <;> simp

theorem isSome_finish_iff (progress : Progress) :
    progress.finish?.isSome ↔ .endOfInput ∈ progress.expected := by
  cases progress <;> simp [finish?, expected, wanted]

end Progress

end TableQuery
