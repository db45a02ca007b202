import TableQuery.Query.Progress
import TableQuery.Query.SyntaxError

/-!
Matching a token stream against the query grammar. A parser can be asked for a query again after it
has failed; it goes on from the token where it stopped, and the symbols wanted in vain stay noted
until a token is passed.
-/

namespace TableQuery

def noteSymbols (noted fresh : List Symbol) : List Symbol :=
  noted ++ fresh.filter fun symbol => !noted.contains symbol

structure Failure where
  position : Position
  fault : SyntaxFault
  deriving DecidableEq, Repr

def LexicalError.failure (error : LexicalError) : Failure := ⟨error.position, .lexical error.fault⟩

structure Attempt where
  outcome : Except Failure WrittenQuery
  remaining : TokenStream
  noted : List Symbol

/-- Reads on from a state of the grammar. A token is passed only when the one after it can be read;
otherwise the stream stays at that token, and what was tried before it stays noted. -/
def Progress.run (progress : Progress) (noted : List Symbol) : TokenStream → Attempt
  | .endOfInput position =>
      match progress.finish? with
      | some query => ⟨.ok query, .endOfInput position, []⟩
      | none =>
          let wanted := noteSymbols noted progress.expected
          ⟨.error ⟨position, .unexpected wanted none⟩, .endOfInput position, wanted⟩
  | .failure error => ⟨.error error.failure, .failure error, noted⟩
  | .cons token position rest =>
      match progress.step token with
      | none =>
          let wanted := noteSymbols noted progress.expected
          ⟨.error ⟨position, .unexpected wanted (some token)⟩, .cons token position rest, wanted⟩
      | some next =>
          match rest with
          | .failure error =>
              ⟨.error error.failure, .cons token position (.failure error),
                noteSymbols noted (progress.missed token.symbol)⟩
          | .endOfInput ending => next.run [] (.endOfInput ending)
          | .cons following place suffix => next.run [] (.cons following place suffix)

structure Parser where
  source : List Char
  remaining : TokenStream
  noted : List Symbol
  deriving DecidableEq, Repr

namespace Parser

def syntaxError (source : List Char) (failure : Failure) : SyntaxError :=
  ⟨source, failure.position, failure.fault⟩

/-- A parser reads its first token ahead, so a text that begins with no token has no parser, but an
error at once. -/
def ofStream (source : List Char) : TokenStream → Except SyntaxError Parser
  | .failure error => .error (syntaxError source error.failure)
  | stream => .ok ⟨source, stream, []⟩

def parseQuery (parser : Parser) : Except SyntaxError WrittenQuery × Parser :=
  let attempt := Progress.beforeProject.run parser.noted parser.remaining
  (attempt.outcome.mapError (syntaxError parser.source),
    { parser with remaining := attempt.remaining, noted := attempt.noted })

end Parser

def parse (text : String) : Except SyntaxError WrittenQuery := do
  let parser ← Parser.ofStream text.toList (.ofSource text.toList)
  parser.parseQuery.1

end TableQuery
