import Mathlib.Data.Nat.PSub
import TableQuery.Proofs.Query.FirstFailure
import TableQuery.Proofs.Query.LongestToken
import TableQuery.Proofs.Text.Slices

/-!
The lexer on byte offsets. It keeps the whole text and two offsets into it, cuts the text anew for
every token and adds up the bytes that the rules take. A cut or a subtraction that cannot be made
has no result, and neither has a call in which it occurs. There is no such call: the offsets always
lie between characters, and the answers are those of the lexer that keeps the pieces of the text.
-/

namespace TableQuery

structure ByteLexer where
  source : List Char
  position : Nat
  tokenStart : Nat
  deriving DecidableEq, Repr

/-- The number of bytes that a rule takes from the start of what remains. -/
def Token.stride (remaining : List Char) : Token → Nat
  | star | comma => 1
  | comparator sign => byteLength sign.spelling.toList
  | number numeral => byteLength numeral.toList
  | string body => byteLength body.toList + 2
  | project | filter | identifier _ => byteLength (leadingWord remaining)

namespace ByteLexer

def start (source : List Char) : ByteLexer := ⟨source, 0, 0⟩

def rest? (lexer : ByteLexer) : Option (List Char) :=
  (cut? lexer.position lexer.source).map Prod.snd

def place? (lexer : ByteLexer) : Option Position := locate? lexer.source lexer.tokenStart

def skipWhitespace? (lexer : ByteLexer) : Option ByteLexer := do
  let rest ← lexer.rest?
  let skipped ← (byteLength rest).psub (byteLength (trimStart rest))
  some { lexer with position := lexer.position + skipped }

def next? (lexer : ByteLexer) : Option (Except LexicalError Terminal × ByteLexer) := do
  let skipped ← lexer.skipWhitespace?
  let begun : ByteLexer := { skipped with tokenStart := skipped.position }
  match ← begun.rest? with
  | [] => some (.ok none, begun)
  | first :: rest =>
      match scan first rest with
      | .ok lexeme =>
          let position := begun.position + lexeme.token.stride (first :: rest)
          some (.ok (some lexeme.token), { begun with position })
      | .error fault =>
          let place ← begun.place?
          some (.error ⟨fault, place⟩, begun)

/-- Both offsets lie between characters of the text, one not behind the other. This is the invariant
under which no cut of the text can fail. -/
structure InRange (lexer : ByteLexer) : Prop where
  tokenStart : IsBoundary lexer.source lexer.tokenStart
  position : IsBoundary lexer.source lexer.position
  ordered : lexer.tokenStart ≤ lexer.position
  bounded : lexer.position ≤ byteLength lexer.source

/-- The offsets of the pieces into which a text is cut. -/
def ofLexer (lexer : Lexer) : ByteLexer where
  source := lexer.source
  position := byteLength (lexer.before ++ lexer.spelling)
  tokenStart := byteLength lexer.before

theorem of_lexer_start (source : List Char) : ofLexer (.start source) = start source := rfl

theorem in_range_of_lexer (lexer : Lexer) : (ofLexer lexer).InRange := by
  constructor
  · exact ⟨lexer.before, lexer.spelling ++ lexer.rest, List.append_assoc _ _ _, rfl⟩
  · exact is_boundary_append (lexer.before ++ lexer.spelling) lexer.rest
  · rw [ofLexer, byte_length_append]
    exact Nat.le_add_right _ _
  · rw [ofLexer, Lexer.source, byte_length_append _ lexer.rest]
    exact Nat.le_add_right _ _

/-- Offsets in range cut the text into pieces. -/
theorem InRange.exists_of_lexer {lexer : ByteLexer} (inRange : lexer.InRange) :
    ∃ pieces, lexer = ofLexer pieces := by
  obtain ⟨source, position, tokenStart⟩ := lexer
  obtain ⟨⟨before, after, whole, rfl⟩, ⟨front, rest, split, rfl⟩, ordered, -⟩ := inRange
  obtain ⟨spelling, rfl⟩ := exists_more_of_byte_length_le (whole.symm.trans split) ordered
  exact ⟨⟨before, spelling, rest⟩, congrArg (ByteLexer.mk · _ _) split⟩

theorem InRange.isSome_rest? {lexer : ByteLexer} (inRange : lexer.InRange) :
    lexer.rest?.isSome := by
  rw [rest?, Option.isSome_map, isSome_cut?_iff]
  exact inRange.position

theorem place?_of_lexer (lexer : Lexer) : (ofLexer lexer).place? = some lexer.position := by
  rw [place?, ofLexer, Lexer.source, List.append_assoc, locate?_append]
  rfl

theorem rest?_append (before after : List Char) (tokenStart : Nat) :
    (ByteLexer.mk (before ++ after) (byteLength before) tokenStart).rest? = some after := by
  rw [rest?, cut?_append]
  rfl

/-- Between the two bytes of a character nothing can be cut. -/
example : (ByteLexer.mk ['é'] 1 0).rest? = none := by decide

theorem skip_whitespace?_of_lexer (lexer : Lexer) :
    (ofLexer lexer).skipWhitespace? =
      some ⟨lexer.source,
        byteLength (lexer.before ++ lexer.spelling ++ lexer.rest.takeWhile isWhitespace),
        byteLength lexer.before⟩ := by
  have rest : (ofLexer lexer).rest? = some lexer.rest := rest?_append _ _ _
  have skipped : (byteLength lexer.rest).psub (byteLength (trimStart lexer.rest)) =
      some (byteLength (lexer.rest.takeWhile isWhitespace)) := by
    rw [Nat.psub_eq_some, trimStart, ← byte_length_append, List.takeWhile_append_dropWhile]
  rw [skipWhitespace?, rest, byte_length_append]
  simp only [Option.bind_eq_bind, Option.bind_some, skipped]
  rfl

end ByteLexer

/-- The rules add up the bytes of what they take. -/
theorem stride_of_scan {first : Char} {rest : List Char} {lexeme : Lexeme}
    (scanned : scan first rest = .ok lexeme) :
    lexeme.token.stride (first :: rest) = byteLength lexeme.spelling := by
  cases scans_of_scan scanned with
  | star => rfl
  | comma => rfl
  | comparator => rfl
  | number => rw [Token.stride, String.toList_ofList]
  | string =>
      rw [Token.stride, String.toList_ofList, byte_length_append, byteLength]
      simp only [byteLength, Nat.add_zero, show backtick.utf8Size = 1 by decide]
      omega
  | word =>
      rw [wordToken, keyword?]
      split
      · rfl
      · split <;> rfl

def Lexer.answer (lexer : Lexer) : Except LexicalError Terminal :=
  match lexer.outcome with
  | .token token => .ok (some token)
  | .endOfInput => .ok none
  | .failure fault => .error ⟨fault, lexer.nextPosition⟩

namespace Lexer

variable {lexer : Lexer}

theorem outcome_of_ok {terminal : Terminal} (answered : lexer.answer = .ok terminal) :
    lexer.outcome = terminal.outcome := by
  unfold answer at answered
  split at answered <;> cases answered
  · assumption
  · assumption

theorem outcome_of_error {error : LexicalError} (failed : lexer.answer = .error error) :
    lexer.outcome = .failure error.fault := by
  unfold answer at failed
  split at failed <;> cases failed
  assumption

theorem position_of_error {error : LexicalError} (failed : lexer.answer = .error error) :
    error.position = lexer.nextPosition := by
  unfold answer at failed
  split at failed <;> cases failed
  rfl

theorem next_next (stopped : ∀ token, lexer.outcome ≠ .token token) :
    lexer.next.2.next = lexer.next := by
  obtain ⟨gap, remaining, -, -, visible, ⟨token, _, -, -, read⟩ | ⟨stuck, read⟩⟩ :=
    lexer.next_cases
  · have found : lexer.outcome = .token token := by rw [outcome, read]
    exact absurd found (stopped token)
  · rw [read, next_of_starts_with_no_lexeme visible stuck]

end Lexer

namespace ByteLexer

theorem next?_of_lexer (lexer : Lexer) :
    (ofLexer lexer).next? = some (lexer.answer, ofLexer lexer.next.2) := by
  have whole : lexer.source = lexer.before ++ lexer.spelling ++
      lexer.rest.takeWhile isWhitespace ++ lexer.rest.dropWhile isWhitespace := by
    rw [List.append_assoc _ (lexer.rest.takeWhile isWhitespace), List.takeWhile_append_dropWhile]
    rfl
  have begun (tokenStart : Nat) := rest?_append (lexer.before ++ lexer.spelling ++
    lexer.rest.takeWhile isWhitespace) (lexer.rest.dropWhile isWhitespace) tokenStart
  have kept := lexer.source_next
  rw [← whole] at begun
  rw [next?, skip_whitespace?_of_lexer]
  simp only [Option.bind_eq_bind, Option.bind_some, begun]
  cases remaining : lexer.rest.dropWhile isWhitespace with
  | nil =>
      have read : lexer.next = (.endOfInput,
          ⟨lexer.before ++ lexer.spelling ++ lexer.rest.takeWhile isWhitespace, [], []⟩) := by
        simp only [Lexer.next, remaining]
      rw [read] at kept
      simp only [Lexer.answer, Lexer.outcome, read, ofLexer, kept, List.append_nil]
  | cons first rest =>
      cases scanned : scan first rest with
      | ok lexeme =>
          have read : lexer.next = (.token lexeme.token,
              ⟨lexer.before ++ lexer.spelling ++ lexer.rest.takeWhile isWhitespace,
                lexeme.spelling, (first :: rest).drop lexeme.spelling.length⟩) := by
            simp only [Lexer.next, remaining, scanned]
          rw [read] at kept
          simp only [scanned, stride_of_scan scanned, Lexer.answer, Lexer.outcome, read, ofLexer,
            kept, byte_length_append _ lexeme.spelling]
      | error fault =>
          have read : lexer.next = (.failure fault,
              ⟨lexer.before ++ lexer.spelling ++ lexer.rest.takeWhile isWhitespace, [],
                first :: rest⟩) := by
            simp only [Lexer.next, remaining, scanned]
          have place := place?_of_lexer lexer.next.2
          rw [read] at kept place
          simp only [ofLexer, kept, List.append_nil] at place
          simp only [scanned, place, Option.bind_some, Lexer.answer, Lexer.outcome,
            Lexer.nextPosition, read, ofLexer, kept, List.append_nil]

/-- From offsets in range all cuts can be made, and a call leads to offsets in range. By induction
the same holds of every number of calls. -/
theorem InRange.step {lexer : ByteLexer} (inRange : lexer.InRange) :
    lexer.rest?.isSome ∧ lexer.place?.isSome ∧
      ∃ answer after, lexer.next? = some (answer, after) ∧ after.source = lexer.source ∧
        after.InRange := by
  have rest := inRange.isSome_rest?
  obtain ⟨pieces, rfl⟩ := inRange.exists_of_lexer
  have place : (ofLexer pieces).place?.isSome := by
    rw [place?_of_lexer]
    rfl
  exact ⟨rest, place, pieces.answer, ofLexer pieces.next.2, next?_of_lexer pieces,
    pieces.source_next, in_range_of_lexer _⟩

end ByteLexer

inductive LexerCall where
  | nextToken
  | tokenStart
  deriving DecidableEq, Repr

inductive LexerReply where
  | next (answer : Except LexicalError Terminal)
  | start (place : Position)

def ByteLexer.reply? (lexer : ByteLexer) : LexerCall → Option (LexerReply × ByteLexer)
  | .nextToken => lexer.next?.map fun (answer, after) => (.next answer, after)
  | .tokenStart => lexer.place?.map fun place => (.start place, lexer)

def ByteLexer.replies? (lexer : ByteLexer) : List LexerCall → Option (List LexerReply × ByteLexer)
  | [] => some ([], lexer)
  | call :: calls => do
      let (reply, after) ← lexer.reply? call
      let (replies, last) ← after.replies? calls
      some (reply :: replies, last)

def Lexer.reply (lexer : Lexer) : LexerCall → LexerReply × Lexer
  | .nextToken => (.next lexer.answer, lexer.next.2)
  | .tokenStart => (.start lexer.position, lexer)

def Lexer.replies (lexer : Lexer) : List LexerCall → List LexerReply × Lexer
  | [] => ([], lexer)
  | call :: calls =>
      let (reply, after) := lexer.reply call
      let (replies, last) := after.replies calls
      (reply :: replies, last)

theorem ByteLexer.reply?_of_lexer (lexer : Lexer) (call : LexerCall) :
    (ofLexer lexer).reply? call = some ((lexer.reply call).1, ofLexer (lexer.reply call).2) := by
  cases call with
  | nextToken =>
      rw [reply?, next?_of_lexer]
      rfl
  | tokenStart =>
      rw [reply?, place?_of_lexer]
      rfl

theorem ByteLexer.replies?_of_lexer (lexer : Lexer) (calls : List LexerCall) :
    (ofLexer lexer).replies? calls =
      some ((lexer.replies calls).1, ofLexer (lexer.replies calls).2) := by
  induction calls generalizing lexer with
  | nil => rfl
  | cons call calls induction =>
      rw [replies?, reply?_of_lexer]
      simp only [Option.bind_eq_bind, Option.bind_some, induction]
      rfl

theorem Lexer.source_replies (lexer : Lexer) (calls : List LexerCall) :
    (lexer.replies calls).2.source = lexer.source := by
  induction calls generalizing lexer with
  | nil => rfl
  | cons call calls induction =>
      rw [replies]
      dsimp only
      rw [induction]
      cases call with
      | nextToken => exact lexer.source_next
      | tokenStart => rfl

end TableQuery
