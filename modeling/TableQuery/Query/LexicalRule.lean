import TableQuery.Text.CharacterClass
import TableQuery.Query.Token

/-!
The lexical rules of the query language. Each rule looks at the start of a text and takes the
longest piece that belongs to it; a word is a keyword only when all of it spells the keyword.
-/

namespace TableQuery

def backtick : Char := '\x60'

def keyword? (word : String) : Option Token :=
  if word = "PROJECT" then some .project
  else if word = "FILTER" then some .filter
  else none

/-- The two-character signs come first, so `>=` is never `>` followed by `=`. -/
def leadingComparator? : List Char → Option Comparator
  | '>' :: '=' :: _ => some .greaterEqual
  | '<' :: '=' :: _ => some .lessEqual
  | '=' :: _ => some .equal
  | '>' :: _ => some .greater
  | '<' :: _ => some .less
  | _ => none

/-- A point counts only together with a digit after it. Otherwise it is left behind, and the number
ends before it. -/
def leadingFraction : List Char → List Char
  | '.' :: rest =>
      let digits := rest.takeWhile Char.isDigit
      if digits.isEmpty then [] else '.' :: digits
  | _ => []

def leadingUnsigned (text : List Char) : List Char :=
  let whole := text.takeWhile Char.isDigit
  if whole.isEmpty then [] else whole ++ leadingFraction (text.dropWhile Char.isDigit)

def leadingNumber : List Char → List Char
  | '-' :: rest =>
      let unsigned := leadingUnsigned rest
      if unsigned.isEmpty then [] else '-' :: unsigned
  | text => leadingUnsigned text

def isWordCharacter (character : Char) : Bool :=
  isLetter character || character.isDigit || character == '_'

def leadingWord : List Char → List Char
  | [] => []
  | first :: rest => if isLetter first then first :: rest.takeWhile isWordCharacter else []

/-- The text between two backticks, of which the first opens the given text. Nothing is escaped. -/
def leadingStringBody? : List Char → Option (List Char)
  | [] => none
  | first :: rest =>
      if first = backtick ∧ rest.contains backtick then
        some (rest.takeWhile (· != backtick))
      else none

structure Lexeme where
  token : Token
  spelling : List Char
  deriving DecidableEq, Repr

inductive LexicalFault where
  | unexpectedCharacter (character : Char)
  | unterminatedString
  deriving DecidableEq, Repr

def wordToken (word : String) : Token := (keyword? word).getD (.identifier word)

def scan (first : Char) (rest : List Char) : Except LexicalFault Lexeme :=
  let text := first :: rest
  if first = '*' then .ok ⟨.star, ['*']⟩
  else if first = ',' then .ok ⟨.comma, [',']⟩
  else if first = backtick then
    match leadingStringBody? text with
    | some body => .ok ⟨.string (String.ofList body), backtick :: body ++ [backtick]⟩
    | none => .error .unterminatedString
  else
    match leadingComparator? text with
    | some sign => .ok ⟨.comparator sign, sign.spelling.toList⟩
    | none =>
        match leadingNumber text, leadingWord text with
        | [], [] => .error (.unexpectedCharacter first)
        | [], word => .ok ⟨wordToken (String.ofList word), word⟩
        | numeral, _ => .ok ⟨.number (String.ofList numeral), numeral⟩

theorem leading_fraction_starts (text : List Char) : leadingFraction text <+: text := by
  unfold leadingFraction
  split
  · dsimp only
    split
    · exact List.nil_prefix
    · exact (List.prefix_cons_inj _).2 <| List.takeWhile_prefix _
  · exact List.nil_prefix

theorem leading_unsigned_starts (text : List Char) : leadingUnsigned text <+: text := by
  unfold leadingUnsigned
  dsimp only
  split
  · exact List.nil_prefix
  · have digits := List.takeWhile_append_dropWhile (p := Char.isDigit) (l := text)
    have fraction := leading_fraction_starts (text.dropWhile Char.isDigit)
    have whole := (List.prefix_append_right_inj (text.takeWhile Char.isDigit)).2 fraction
    rwa [digits] at whole

theorem leading_number_starts (text : List Char) : leadingNumber text <+: text := by
  unfold leadingNumber
  split
  · dsimp only
    split
    · exact List.nil_prefix
    · exact (List.prefix_cons_inj _).2 (leading_unsigned_starts _)
  · exact leading_unsigned_starts _

theorem leading_word_starts (text : List Char) : leadingWord text <+: text := by
  unfold leadingWord
  split
  · exact List.nil_prefix
  · split
    · exact (List.prefix_cons_inj _).2 <| List.takeWhile_prefix _
    · exact List.nil_prefix

theorem takeWhile_append_starts {Item : Type} [BEq Item] [LawfulBEq Item] {items : List Item}
    {stop : Item} (member : stop ∈ items) :
    items.takeWhile (· != stop) ++ [stop] <+: items := by
  induction items with
  | nil => simp at member
  | cons head rest induction =>
      by_cases same : head = stop
      · simp [same]
      · have later : stop ∈ rest := (List.mem_cons.1 member).resolve_left (Ne.symm same)
        simpa [same] using induction later

theorem leading_string_body_starts {text body : List Char}
    (found : leadingStringBody? text = some body) :
    backtick :: body ++ [backtick] <+: text := by
  unfold leadingStringBody? at found
  split at found
  · cases found
  · split at found
    · rename_i opened
      cases found
      rw [opened.1, List.cons_append, List.prefix_cons_inj]
      exact takeWhile_append_starts (List.contains_iff_mem.1 opened.2)
    · cases found

theorem leading_comparator_starts {text : List Char} {sign : Comparator}
    (found : leadingComparator? text = some sign) : sign.spelling.toList <+: text := by
  unfold leadingComparator? at found
  split at found
  all_goals cases found
  all_goals simp [Comparator.spelling]

theorem spelling_starts_of_scan {first : Char} {rest : List Char} {lexeme : Lexeme}
    (scanned : scan first rest = .ok lexeme) : lexeme.spelling <+: first :: rest := by
  have number := leading_number_starts (first :: rest)
  have word := leading_word_starts (first :: rest)
  have quotedText : ∀ body, leadingStringBody? (first :: rest) = some body →
      backtick :: body ++ [backtick] <+: first :: rest := fun _ => leading_string_body_starts
  have signText : ∀ sign, leadingComparator? (first :: rest) = some sign →
      sign.spelling.toList <+: first :: rest := fun _ => leading_comparator_starts
  grind [scan]

theorem spelling_ne_nil_of_scan {first : Char} {rest : List Char} {lexeme : Lexeme}
    (scanned : scan first rest = .ok lexeme) : lexeme.spelling ≠ [] := by
  have signSpelled (sign : Comparator) : sign.spelling.toList ≠ [] := by cases sign <;> decide
  grind [scan]

end TableQuery
