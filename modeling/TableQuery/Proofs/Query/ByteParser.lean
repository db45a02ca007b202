import TableQuery.Proofs.Number.Digits
import TableQuery.Proofs.Query.ByteLexer

/-!
The query rules as procedures that call one another, on a lexer of byte offsets. A step that has no
result (a cut inside a character, a number below zero, a token of another kind than the one that was
just tested) leaves the whole call without one, also where an error is about to be reported.
-/

namespace TableQuery

structure Diagnosis where
  error : SyntaxError
  message : String
  deriving DecidableEq, Repr

theorem byte_length_of_ascii {text : List Char}
    (ascii : ∀ character ∈ text, character.toNat < 128) :
    byteLength text = text.length := by
  induction text with
  | nil => rfl
  | cons character rest induction =>
      obtain ⟨first, others⟩ := List.forall_mem_cons.1 ascii
      have single : character.utf8Size = 1 := Char.utf8Size_eq_one_iff.2 (Nat.le_of_lt_succ first)
      rw [byteLength, single, induction others, List.length_cons, Nat.add_comm]

/-- Lines and columns count from one. -/
structure Position.FromOne (place : Position) : Prop where
  line : 0 < place.line
  column : 0 < place.column

theorem Position.from_one_after (before : List Char) : (Position.after before).FromOne :=
  ⟨Nat.succ_pos _, Nat.succ_pos _⟩

namespace SyntaxError

def diagnosis (error : SyntaxError) : Diagnosis := ⟨error, error.message⟩

/-- Writes the message. The width of the gutter is counted in bytes, and one is taken off the line
and off the sum of that width and the column. -/
def diagnose? (error : SyntaxError) : Option Diagnosis := do
  let line := error.position.line
  let index ← line.psub 1
  let indent ← (byteLength (gutter line).toList + error.position.column).psub 1
  some ⟨error, error.position.text ++ ":\n" ++ gutter line ++
    String.ofList (lineText index error.source) ++ "\n" ++
    String.ofList (List.replicate indent ' ') ++ "^" ++ "\n" ++ error.fault.explanation⟩

/-- The gutter is as wide in bytes as in characters. -/
theorem byte_length_gutter (line : Nat) :
    byteLength (gutter line).toList = (gutter line).length := by
  have front : byteLength "> ".toList = "> ".toList.length := by decide
  have back : byteLength " | ".toList = " | ".toList.length := by decide
  have number : byteLength (toString line).toList = (toString line).toList.length := by
    apply byte_length_of_ascii
    intro character member
    rw [Nat.toString_eq_repr, Nat.toList_repr] at member
    have digits := (all_digits_iff.1 (Decimal.all_digits_toDigits line)).2
    have bounds := toNat_of_isDigit (digits character member)
    omega
  rw [← String.length_toList, gutter, String.toList_append, String.toList_append,
    byte_length_append,
    byte_length_append, List.length_append, List.length_append, front, number, back]

theorem diagnose?_eq {error : SyntaxError} (counts : error.position.FromOne) :
    error.diagnose? = some error.diagnosis := by
  have index : error.position.line.psub 1 = some (error.position.line - 1) :=
    Nat.psub_eq_sub counts.line
  have indent : (byteLength (gutter error.position.line).toList + error.position.column).psub 1 =
      some ((gutter error.position.line).length + (error.position.column - 1)) := by
    rw [byte_length_gutter, Nat.psub_eq_some, Nat.add_assoc, Nat.sub_add_cancel counts.column]
  simp only [diagnose?, index, indent, Option.bind_eq_bind, Option.bind_some]
  rfl

end SyntaxError

/-- A parser with the token it has read ahead, the place of that token, and the symbols that have
been wanted in vain before it. -/
structure ByteParser where
  lexer : ByteLexer
  current : Terminal
  currentStart : Position
  noted : List Symbol
  deriving DecidableEq, Repr

/-- A procedure of the parser. It may break, and it may report an error; an error leaves the parser
as it was changed until then, since later calls go on from there. -/
abbrev Reading := ExceptT Diagnosis (StateT ByteParser Option)

namespace Reading

section Procedures

variable {Result : Type}

def runOn (reading : Reading Result) (parser : ByteParser) :
    Option (Except Diagnosis Result × ByteParser) :=
  reading.run.run parser

/-- A result that the procedure relies on. -/
def certain (result : Option Result) : Reading Result := liftM result

def broken : Reading Result := certain none

def diagnose (place : Position) (fault : SyntaxFault) : Reading Result := do
  let parser ← get
  let diagnosis ← certain (SyntaxError.diagnose? ⟨parser.lexer.source, place, fault⟩)
  throw diagnosis

def refuse : Reading Result := do
  let parser ← get
  diagnose parser.currentStart (.unexpected parser.noted parser.current)

/-- Passes the current token and gives it. The lexer has moved even when the next token cannot be
read. -/
def advance : Reading Terminal := do
  let parser ← get
  let (answer, lexer) ← certain parser.lexer.next?
  set { parser with lexer }
  match answer with
  | .error error => diagnose error.position (.lexical error.fault)
  | .ok next =>
      let place ← certain lexer.place?
      set (ByteParser.mk lexer next place [])
      return parser.current

def note (symbol : Symbol) : Reading Unit := do
  let parser ← get
  set { parser with noted := noteSymbols parser.noted [symbol] }

def check (symbol : Symbol) : Reading Bool := do
  let parser ← get
  if parser.current.symbol = symbol then return true
  note symbol
  return false

def expect (symbol : Symbol) : Reading Terminal := do
  if ← check symbol then advance else refuse

def identifier : Reading String := do
  match ← expect .identifier with
  | some (.identifier name) => return name
  | _ => broken

def moreNames : Nat → List String → Reading (List String)
  | 0, _ => broken
  | fuel + 1, names => do
      if ← check .comma then
        let _ ← advance
        let name ← identifier
        moreNames fuel (names ++ [name])
      else return names

/-- A text has no more tokens than characters. The loop over the names is bounded by this number, so
that it is seen to end, and the bound is never reached. -/
def fields : Reading Fields := do
  if ← check .star then
    let _ ← advance
    return .wildcard
  else
    let first ← identifier
    let parser ← get
    let names ← moreNames (parser.lexer.source.length + 1) [first]
    return .named names

def comparator : Reading Comparator := do
  let parser ← get
  match parser.current with
  | some (.comparator sign) =>
      let _ ← advance
      return sign
  | _ =>
      [Symbol.comparator .equal, .comparator .greaterEqual, .comparator .lessEqual,
        .comparator .greater, .comparator .less].forM note
      refuse

def constant : Reading WrittenConstant := do
  if ← check .number then
    match ← advance with
    | some (.number numeral) => return .ofNumeral numeral
    | _ => broken
  else if ← check .string then
    match ← advance with
    | some (.string body) => return .string body
    | _ => broken
  else refuse

def condition : Reading (Condition WrittenConstant) := do
  let field ← identifier
  let sign ← comparator
  let constant ← constant
  return ⟨field, sign, constant⟩

def filter : Reading (Option (Condition WrittenConstant)) := do
  if ← check .filter then
    let _ ← advance
    let condition ← condition
    return some condition
  else return none

def query : Reading WrittenQuery := do
  let _ ← expect .project
  let fields ← fields
  let filter ← filter
  let _ ← expect .endOfInput
  return ⟨fields, filter⟩

end Procedures

section Runs

variable {First Result : Type} {first : Reading First} {next : First → Reading Result}
  {parser after : ByteParser}

theorem run_on_bind_ok {result : First} (done : first.runOn parser = some (.ok result, after)) :
    (first >>= next).runOn parser = (next result).runOn after := by
  have run : first parser = some (.ok result, after) := done
  change (first parser).bind _ = _
  rw [run]
  rfl

theorem run_on_bind_error {diagnosis : Diagnosis}
    (failed : first.runOn parser = some (.error diagnosis, after)) :
    (first >>= next).runOn parser = some (.error diagnosis, after) := by
  have run : first parser = some (.error diagnosis, after) := failed
  change (first parser).bind _ = _
  rw [run]
  rfl

theorem run_on_get_bind (next : ByteParser → Reading Result) (parser : ByteParser) :
    (get >>= next).runOn parser = (next parser).runOn parser := rfl

theorem run_on_set_bind (changed : ByteParser) (next : PUnit → Reading Result)
    (parser : ByteParser) : (set changed >>= next).runOn parser = (next ⟨⟩).runOn changed := rfl

theorem run_on_certain_bind {found : Option First} {value : First} (same : found = some value)
    (next : First → Reading Result) (parser : ByteParser) :
    (certain found >>= next).runOn parser = (next value).runOn parser := by
  rw [same]
  rfl

theorem run_on_diagnose {place : Position} (counts : place.FromOne) (fault : SyntaxFault)
    (parser : ByteParser) :
    (diagnose place fault : Reading Result).runOn parser =
      some (.error (SyntaxError.diagnosis ⟨parser.lexer.source, place, fault⟩), parser) := by
  rw [diagnose, run_on_get_bind, run_on_certain_bind (SyntaxError.diagnose?_eq counts)]
  rfl

theorem run_on_refuse (counts : parser.currentStart.FromOne) :
    (refuse : Reading Result).runOn parser =
      some (.error (SyntaxError.diagnosis ⟨parser.lexer.source, parser.currentStart,
        .unexpected parser.noted parser.current⟩), parser) := by
  rw [refuse, run_on_get_bind, run_on_diagnose counts]

theorem run_on_note (symbol : Symbol) (parser : ByteParser) :
    (note symbol).runOn parser =
      some (.ok (), { parser with noted := noteSymbols parser.noted [symbol] }) := rfl

theorem run_on_check_of_eq {symbol : Symbol} (same : parser.current.symbol = symbol) :
    (check symbol).runOn parser = some (.ok true, parser) := by
  rw [check, run_on_get_bind, if_pos same]
  rfl

theorem run_on_check_of_ne {symbol : Symbol} (other : parser.current.symbol ≠ symbol) :
    (check symbol).runOn parser =
      some (.ok false, { parser with noted := noteSymbols parser.noted [symbol] }) := by
  rw [check, run_on_get_bind, if_neg other]
  rfl

theorem run_on_advance (lexer : Lexer) (current : Terminal) (place : Position)
    (noted : List Symbol) :
    advance.runOn ⟨.ofLexer lexer, current, place, noted⟩ =
      match lexer.answer with
      | .error error =>
          some (.error (SyntaxError.diagnosis
              ⟨lexer.source, error.position, .lexical error.fault⟩),
            ⟨.ofLexer lexer.next.2, current, place, noted⟩)
      | .ok next => some (.ok current, ⟨.ofLexer lexer.next.2, next, lexer.nextPosition, []⟩) := by
  rw [advance, run_on_get_bind, run_on_certain_bind (ByteLexer.next?_of_lexer lexer),
    run_on_set_bind]
  cases answered : lexer.answer with
  | error error =>
      have counts : error.position.FromOne :=
        Lexer.position_of_error answered ▸ Position.from_one_after _
      dsimp only
      rw [run_on_diagnose counts, ByteLexer.ofLexer, lexer.source_next]
  | ok next =>
      dsimp only
      rw [run_on_certain_bind (ByteLexer.place?_of_lexer _), run_on_set_bind]
      rfl

theorem run_on_diagnose_ne_ok (place : Position) (fault : SyntaxFault) (parser : ByteParser)
    (result : Result × ByteParser) :
    (diagnose place fault).runOn parser ≠ some (.ok result.1, result.2) := by
  intro done
  rw [diagnose, run_on_get_bind] at done
  cases written : SyntaxError.diagnose? ⟨parser.lexer.source, place, fault⟩ with
  | none =>
      rw [written] at done
      cases done
  | some diagnosis =>
      rw [run_on_certain_bind written] at done
      cases done

theorem current_of_advance {passed : Terminal}
    (taken : advance.runOn parser = some (.ok passed, after)) : passed = parser.current := by
  rw [advance, run_on_get_bind] at taken
  cases read : parser.lexer.next? with
  | none =>
      rw [read] at taken
      cases taken
  | some step =>
      obtain ⟨answer, lexer⟩ := step
      rw [run_on_certain_bind read, run_on_set_bind] at taken
      cases answer with
      | error error => exact absurd taken (run_on_diagnose_ne_ok _ _ _ (passed, after))
      | ok next =>
          dsimp only at taken
          cases placed : lexer.place? with
          | none =>
              rw [placed] at taken
              cases taken
          | some place =>
              rw [run_on_certain_bind placed] at taken
              cases taken
              rfl

theorem symbol_of_check {symbol : Symbol}
    (matched : (check symbol).runOn parser = some (.ok true, after)) :
    after = parser ∧ parser.current.symbol = symbol := by
  by_cases same : parser.current.symbol = symbol
  · rw [run_on_check_of_eq same] at matched
    cases matched
    exact ⟨rfl, same⟩
  · rw [run_on_check_of_ne same] at matched
    cases matched

end Runs

end Reading

namespace ByteParser

def ofLexer? (lexer : ByteLexer) : Option (Except Diagnosis ByteParser) := do
  let (answer, after) ← lexer.next?
  match answer with
  | .error error =>
      let diagnosis ← SyntaxError.diagnose? ⟨lexer.source, error.position, .lexical error.fault⟩
      some (.error diagnosis)
  | .ok current =>
      let place ← after.place?
      some (.ok ⟨after, current, place, []⟩)

def afterCalls? (parser : ByteParser) : Nat → Option ByteParser
  | 0 => some parser
  | count + 1 => do
      let (_, after) ← Reading.query.runOn parser
      after.afterCalls? count

theorem of_lexer?_of_error {lexer : Lexer} {error : LexicalError}
    (failed : lexer.answer = .error error) :
    ofLexer? (.ofLexer lexer) =
      some (.error (Parser.syntaxError lexer.source error.failure).diagnosis) := by
  have counts : error.position.FromOne :=
    Lexer.position_of_error failed ▸ Position.from_one_after _
  have written : SyntaxError.diagnose? ⟨lexer.source, error.position, .lexical error.fault⟩ =
      some (Parser.syntaxError lexer.source error.failure).diagnosis :=
    SyntaxError.diagnose?_eq counts
  rw [ofLexer?, ByteLexer.next?_of_lexer, failed]
  simp only [Option.bind_eq_bind, Option.bind_some, ByteLexer.ofLexer, written]

theorem of_lexer?_of_ok {lexer : Lexer} {terminal : Terminal}
    (answered : lexer.answer = .ok terminal) :
    ofLexer? (.ofLexer lexer) =
      some (.ok ⟨.ofLexer lexer.next.2, terminal, lexer.nextPosition, []⟩) := by
  rw [ofLexer?, ByteLexer.next?_of_lexer, answered]
  simp only [Option.bind_eq_bind, Option.bind_some, ByteLexer.place?_of_lexer]
  rfl

end ByteParser

end TableQuery
