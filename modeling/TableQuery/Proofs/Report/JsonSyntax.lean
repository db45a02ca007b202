import Mathlib.Data.List.TakeWhile
import TableQuery.Number.Radix
import TableQuery.Proofs.Number.Digits
import TableQuery.Proofs.Text.CharacterClass

/-!
The grammar of JSON texts, as derivations in two steps: a text spells tokens, with blanks around
them, and tokens derive a tree. No text is derived as two trees, so a tree is what any reader of
JSON gets out of the text.
-/

namespace TableQuery.Json

def isBlank (character : Char) : Bool :=
  character == ' ' || character == '\t' || character == '\n' || character == '\r'

inductive Sign where
  | openArray
  | closeArray
  | openObject
  | closeObject
  | comma
  | colon
  | null
  | yes
  | no
  deriving DecidableEq, Repr

def Sign.spelling : Sign → List Char
  | openArray => ['[']
  | closeArray => [']']
  | openObject => ['\x7b']
  | closeObject => ['\x7d']
  | comma => [',']
  | colon => [':']
  | null => ['n', 'u', 'l', 'l']
  | yes => ['t', 'r', 'u', 'e']
  | no => ['f', 'a', 'l', 's', 'e']

/-- A string token holds the text that it stands for, a number token its spelling. -/
inductive Token where
  | sign (sign : Sign)
  | string (text : String)
  | number (numeral : List Char)
  deriving DecidableEq, Repr

def shortEscape? : Char → Option Char
  | '"' => some '"'
  | '\\' => some '\\'
  | '/' => some '/'
  | 'b' => some '\x08'
  | 'f' => some '\x0c'
  | 'n' => some '\n'
  | 'r' => some '\r'
  | 't' => some '\t'
  | _ => none

def codeUnit? (first second third fourth : Char) : Option Nat := do
  let first ← digitValue? 16 first
  let second ← digitValue? 16 second
  let third ← digitValue? 16 third
  let fourth ← digitValue? 16 fourth
  return ((first * 16 + second) * 16 + third) * 16 + fourth

def IsHighSurrogate (unit : Nat) : Prop := 0xD800 ≤ unit ∧ unit < 0xDC00

def IsLowSurrogate (unit : Nat) : Prop := 0xDC00 ≤ unit ∧ unit < 0xE000

/-- What a text up to the next closing quote stands for, and the text behind that quote. -/
inductive StringBody : List Char → List Char → List Char → Prop
  | close (rest : List Char) : StringBody ('"' :: rest) [] rest
  | plain {character : Char} {text body rest : List Char}
      (allowed : 32 ≤ character.toNat ∧ character ≠ '"' ∧ character ≠ '\\')
      (later : StringBody text body rest) :
      StringBody (character :: text) (character :: body) rest
  | short {letter character : Char} {text body rest : List Char}
      (escaped : shortEscape? letter = some character) (later : StringBody text body rest) :
      StringBody ('\\' :: letter :: text) (character :: body) rest
  | unit {first second third fourth : Char} {unit : Nat} {text body rest : List Char}
      (spelled : codeUnit? first second third fourth = some unit)
      (scalar : ¬IsHighSurrogate unit ∧ ¬IsLowSurrogate unit)
      (later : StringBody text body rest) :
      StringBody ('\\' :: 'u' :: first :: second :: third :: fourth :: text)
        (Char.ofNat unit :: body) rest
  | pair {first second third fourth fifth sixth seventh eighth : Char} {high low : Nat}
      {text body rest : List Char}
      (spelledHigh : codeUnit? first second third fourth = some high)
      (isHigh : IsHighSurrogate high)
      (spelledLow : codeUnit? fifth sixth seventh eighth = some low) (isLow : IsLowSurrogate low)
      (later : StringBody text body rest) :
      StringBody
        ('\\' :: 'u' :: first :: second :: third :: fourth ::
          '\\' :: 'u' :: fifth :: sixth :: seventh :: eighth :: text)
        (Char.ofNat (0x10000 + (high - 0xD800) * 0x400 + (low - 0xDC00)) :: body) rest

/-- Digits, of which the first is a zero only when it is alone. -/
structure IsWholeNumeral (digits : List Char) : Prop where
  isDigits : allDigits digits = true
  noLeadingZero : digits.head? = some '0' → digits = ['0']

inductive IsFraction : List Char → Prop
  | absent : IsFraction []
  | places {digits : List Char} (isDigits : allDigits digits = true) : IsFraction ('.' :: digits)

inductive IsExponent : List Char → Prop
  | absent : IsExponent []
  | power {mark : Char} {sign digits : List Char} (isMark : mark = 'e' ∨ mark = 'E')
      (isSign : sign = [] ∨ sign = ['+'] ∨ sign = ['-']) (isDigits : allDigits digits = true) :
      IsExponent (mark :: (sign ++ digits))

inductive IsNumber : List Char → Prop
  | parts {sign whole fraction exponent : List Char} (isSign : sign = [] ∨ sign = ['-'])
      (isWhole : IsWholeNumeral whole) (isFraction : IsFraction fraction)
      (isExponent : IsExponent exponent) :
      IsNumber (sign ++ (whole ++ (fraction ++ exponent)))

def isNumberCharacter (character : Char) : Bool :=
  character.isDigit || ['-', '+', '.', 'e', 'E'].contains character

/-- A token at the start of a text, and the text behind it. A number ends where no character of a
number follows. -/
inductive SpellsToken : Token → List Char → List Char → Prop
  | sign (sign : Sign) (rest : List Char) : SpellsToken (.sign sign) (sign.spelling ++ rest) rest
  | string {text body rest : List Char} (isBody : StringBody text body rest) :
      SpellsToken (.string (String.ofList body)) ('"' :: text) rest
  | number {numeral rest : List Char} (isNumber : IsNumber numeral)
      (ends : ∀ character ∈ rest.head?, isNumberCharacter character = false) :
      SpellsToken (.number numeral) (numeral ++ rest) rest

/-- Blanks may stand before every token and at the end. -/
inductive Spells : List Token → List Char → Prop
  | ending {gap : List Char} (blank : ∀ character ∈ gap, isBlank character = true) : Spells [] gap
  | token {gap text rest : List Char} {token : Token} {tokens : List Token}
      (blank : ∀ character ∈ gap, isBlank character = true)
      (spelled : SpellsToken token text rest) (later : Spells tokens rest) :
      Spells (token :: tokens) (gap ++ text)

/-- What a JSON text says. A number is kept as it is spelled, since rounding belongs to the reader
of the text, and members keep their order. -/
inductive Tree where
  | null
  | boolean (value : Bool)
  | number (numeral : List Char)
  | string (text : String)
  | array (items : List Tree)
  | object (members : List (String × Tree))

/-- Items and members reach up to their closing bracket, and there is at least one of them. -/
inductive Phrase where
  | value (tree : Tree)
  | items (trees : List Tree)
  | members (members : List (String × Tree))

inductive Derives : Phrase → List Token → List Token → Prop
  | null (rest : List Token) : Derives (.value .null) (.sign .null :: rest) rest
  | yes (rest : List Token) : Derives (.value (.boolean true)) (.sign .yes :: rest) rest
  | no (rest : List Token) : Derives (.value (.boolean false)) (.sign .no :: rest) rest
  | number (numeral : List Char) (rest : List Token) :
      Derives (.value (.number numeral)) (.number numeral :: rest) rest
  | string (text : String) (rest : List Token) :
      Derives (.value (.string text)) (.string text :: rest) rest
  | emptyArray (rest : List Token) :
      Derives (.value (.array [])) (.sign .openArray :: .sign .closeArray :: rest) rest
  | array {trees : List Tree} {tokens rest : List Token}
      (items : Derives (.items trees) tokens rest) :
      Derives (.value (.array trees)) (.sign .openArray :: tokens) rest
  | emptyObject (rest : List Token) :
      Derives (.value (.object [])) (.sign .openObject :: .sign .closeObject :: rest) rest
  | object {pairs : List (String × Tree)} {tokens rest : List Token}
      (members : Derives (.members pairs) tokens rest) :
      Derives (.value (.object pairs)) (.sign .openObject :: tokens) rest
  | lastItem {tree : Tree} {tokens rest : List Token}
      (item : Derives (.value tree) tokens (.sign .closeArray :: rest)) :
      Derives (.items [tree]) tokens rest
  | item {tree : Tree} {trees : List Tree} {tokens middle rest : List Token}
      (item : Derives (.value tree) tokens (.sign .comma :: middle))
      (later : Derives (.items trees) middle rest) : Derives (.items (tree :: trees)) tokens rest
  | lastMember {name : String} {tree : Tree} {tokens rest : List Token}
      (value : Derives (.value tree) tokens (.sign .closeObject :: rest)) :
      Derives (.members [(name, tree)]) (.string name :: .sign .colon :: tokens) rest
  | member {name : String} {tree : Tree} {pairs : List (String × Tree)}
      {tokens middle rest : List Token}
      (value : Derives (.value tree) tokens (.sign .comma :: middle))
      (later : Derives (.members pairs) middle rest) :
      Derives (.members ((name, tree) :: pairs)) (.string name :: .sign .colon :: tokens) rest

def IsText (text : List Char) (tree : Tree) : Prop :=
  ∃ tokens, Spells tokens text ∧ Derives (.value tree) tokens []

theorem StringBody.unique {text body other rest otherRest : List Char}
    (first : StringBody text body rest) (second : StringBody text other otherRest) :
    body = other ∧ rest = otherRest := by
  induction first generalizing other otherRest with
  | close rest =>
      cases second with
      | close => exact ⟨rfl, rfl⟩
      | plain allowed => exact absurd rfl allowed.2.1
  | plain allowed _ induction =>
      cases second with
      | close => exact absurd rfl allowed.2.1
      | plain _ later =>
          rcases induction later with ⟨rfl, same⟩
          exact ⟨rfl, same⟩
      | short => exact absurd rfl allowed.2.2
      | unit => exact absurd rfl allowed.2.2
      | pair => exact absurd rfl allowed.2.2
  | short escaped _ induction =>
      cases second with
      | plain allowed => exact absurd rfl allowed.2.2
      | short escapedAgain later =>
          rcases induction later with ⟨rfl, same⟩
          cases escaped.symm.trans escapedAgain
          exact ⟨rfl, same⟩
      | unit => cases escaped
      | pair => cases escaped
  | unit spelled scalar _ induction =>
      cases second with
      | plain allowed => exact absurd rfl allowed.2.2
      | short escaped => cases escaped
      | unit spelledAgain _ later =>
          rcases induction later with ⟨rfl, same⟩
          cases spelled.symm.trans spelledAgain
          exact ⟨rfl, same⟩
      | pair spelledHigh isHigh =>
          cases spelled.symm.trans spelledHigh
          exact absurd isHigh scalar.1
  | pair spelledHigh isHigh spelledLow _ _ induction =>
      cases second with
      | plain allowed => exact absurd rfl allowed.2.2
      | short escaped => cases escaped
      | unit spelled scalar =>
          cases spelledHigh.symm.trans spelled
          exact absurd isHigh scalar.1
      | pair spelledHighAgain _ spelledLowAgain _ later =>
          rcases induction later with ⟨rfl, same⟩
          cases spelledHigh.symm.trans spelledHighAgain
          cases spelledLow.symm.trans spelledLowAgain
          exact ⟨rfl, same⟩

theorem is_number_character_of_all_digits {digits : List Char}
    (isDigits : allDigits digits = true) :
    ∀ character ∈ digits, isNumberCharacter character = true := by
  intro character member
  rw [isNumberCharacter, (all_digits_iff.1 isDigits).2 character member, Bool.true_or]

theorem IsNumber.is_number_character {numeral : List Char} (isNumber : IsNumber numeral) :
    ∀ character ∈ numeral, isNumberCharacter character = true := by
  cases isNumber with
  | parts isSign isWhole isFraction isExponent =>
      simp only [List.forall_mem_append]
      refine ⟨?_, is_number_character_of_all_digits isWhole.isDigits, ?_, ?_⟩
      · rcases isSign with rfl | rfl
        · exact List.forall_mem_nil _
        · exact List.forall_mem_singleton.2 rfl
      · cases isFraction with
        | absent => simp
        | places isDigits =>
            rw [List.forall_mem_cons]
            exact ⟨by decide, is_number_character_of_all_digits isDigits⟩
      · cases isExponent with
        | absent => simp
        | power isMark isSign isDigits =>
            rw [List.forall_mem_cons, List.forall_mem_append]
            refine ⟨?_, ?_, is_number_character_of_all_digits isDigits⟩
            · rcases isMark with rfl | rfl <;> decide
            · rcases isSign with rfl | rfl | rfl
              · exact List.forall_mem_nil _
              · exact List.forall_mem_singleton.2 rfl
              · exact List.forall_mem_singleton.2 rfl

theorem IsNumber.exists_first {numeral : List Char} (isNumber : IsNumber numeral) :
    ∃ first rest, numeral = first :: rest ∧ (first.isDigit = true ∨ first = '-') := by
  cases isNumber with
  | parts isSign isWhole =>
      rcases isSign with rfl | rfl
      · rcases exists_cons_of_all_digits isWhole.isDigits with ⟨first, rest, rfl, digit, -⟩
        exact ⟨first, _, rfl, .inl digit⟩
      · exact ⟨'-', _, rfl, .inr rfl⟩

/-- The kind of a token shows in its first character. -/
inductive Kind where
  | sign (sign : Sign)
  | string
  | number
  deriving DecidableEq

def Token.kind : Token → Kind
  | .sign fixed => .sign fixed
  | .string _ => .string
  | .number _ => .number

def kindOf (first : Char) : Option Kind :=
  match first with
  | '[' => some (.sign .openArray)
  | ']' => some (.sign .closeArray)
  | '\x7b' => some (.sign .openObject)
  | '\x7d' => some (.sign .closeObject)
  | ',' => some (.sign .comma)
  | ':' => some (.sign .colon)
  | 'n' => some (.sign .null)
  | 't' => some (.sign .yes)
  | 'f' => some (.sign .no)
  | '"' => some .string
  | '-' => some .number
  | character => if character.isDigit then some .number else none

theorem kind_of_of_isDigit {first : Char} (digit : first.isDigit = true) :
    kindOf first = some .number := by
  unfold kindOf
  split <;> simp_all

theorem is_blank_eq_false_of_kind_of {first : Char} {kind : Kind}
    (opens : kindOf first = some kind) :
    isBlank first = false := by
  rw [Bool.eq_false_iff]
  intro blank
  simp only [isBlank, Bool.or_eq_true, beq_iff_eq] at blank
  rcases blank with ((rfl | rfl) | rfl) | rfl <;> cases opens

theorem SpellsToken.exists_first {token : Token} {text rest : List Char}
    (spelled : SpellsToken token text rest) :
    ∃ first tail, text = first :: tail ∧ kindOf first = some token.kind := by
  cases spelled with
  | sign sign =>
      cases sign <;> exact ⟨_, _, rfl, rfl⟩
  | string isBody => exact ⟨'"', _, rfl, rfl⟩
  | number isNumber =>
      rcases isNumber.exists_first with ⟨first, tail, rfl, digit | rfl⟩
      · exact ⟨first, _, rfl, kind_of_of_isDigit digit⟩
      · exact ⟨'-', _, rfl, rfl⟩

theorem SpellsToken.unique {token other : Token} {text rest otherRest : List Char}
    (first : SpellsToken token text rest) (second : SpellsToken other text otherRest) :
    token = other ∧ rest = otherRest := by
  have sameKind : token.kind = other.kind := by
    rcases first.exists_first with ⟨head, tail, same, kind⟩
    rcases second.exists_first with ⟨otherHead, otherTail, otherSame, otherKind⟩
    cases same.symm.trans otherSame
    exact Option.some.inj (kind.symm.trans otherKind)
  generalize whole : text = same at second
  cases first with
  | sign sign rest =>
      cases second with
      | sign otherSign otherRest =>
          cases sameKind
          exact ⟨rfl, List.append_cancel_left whole⟩
      | string => cases sameKind
      | number => cases sameKind
  | string isBody =>
      cases second with
      | sign => cases sameKind
      | string otherBody =>
          cases whole
          rcases isBody.unique otherBody with ⟨rfl, same⟩
          exact ⟨rfl, same⟩
      | number => cases sameKind
  | number isNumber ends =>
      cases second with
      | sign => cases sameKind
      | string => cases sameKind
      | number otherNumber otherEnds =>
          have cut := span_append isNumber.is_number_character _ ends
          have otherCut := span_append otherNumber.is_number_character _ otherEnds
          rw [whole] at cut
          have sameNumeral := cut.1.symm.trans otherCut.1
          exact ⟨congrArg Token.number sameNumeral, cut.2.symm.trans otherCut.2⟩

theorem SpellsToken.dropWhile_is_blank {token : Token} {gap text rest : List Char}
    (spelled : SpellsToken token text rest)
    (blank : ∀ character ∈ gap, isBlank character = true) :
    (gap ++ text).dropWhile isBlank = text ∧ text ≠ [] := by
  rcases spelled.exists_first with ⟨first, tail, rfl, opens⟩
  have stop : ∀ character ∈ (first :: tail).head?, isBlank character = false := by
    simpa using is_blank_eq_false_of_kind_of opens
  exact ⟨(span_append blank (first :: tail) stop).2, List.cons_ne_nil _ _⟩

theorem Spells.unique {tokens others : List Token} {text : List Char} (first : Spells tokens text)
    (second : Spells others text) : tokens = others := by
  induction first generalizing others with
  | @ending gap blank =>
      have noneLeft : gap.dropWhile isBlank = [] := List.dropWhile_eq_nil_iff.2 blank
      cases second with
      | ending => rfl
      | token otherBlank otherSpelled =>
          have cut := otherSpelled.dropWhile_is_blank otherBlank
          rw [noneLeft] at cut
          exact absurd cut.1.symm cut.2
  | @token gap text rest token tokens blank spelled _ induction =>
      have cut := spelled.dropWhile_is_blank blank
      generalize whole : gap ++ text = all at second cut
      cases second with
      | ending otherBlank =>
          rw [List.dropWhile_eq_nil_iff.2 otherBlank] at cut
          exact absurd cut.1.symm cut.2
      | token otherBlank otherSpelled otherLater =>
          rw [(otherSpelled.dropWhile_is_blank otherBlank).1] at cut
          rw [← cut.1] at spelled
          rcases spelled.unique otherSpelled with ⟨rfl, rfl⟩
          rw [induction otherLater]

def Phrase.sameKind : Phrase → Phrase → Prop
  | value _, value _ => True
  | items _, items _ => True
  | members _, members _ => True
  | _, _ => False

/-- No item begins with a closing bracket, so a list that is closed at once has no items. -/
theorem not_derives_items_close_array {trees : List Tree} {rest last : List Token} :
    ¬Derives (.items trees) (.sign .closeArray :: rest) last := by
  intro derived
  cases derived with
  | lastItem item => cases item
  | item item => cases item

/-- A phrase of a known kind is derived in one way, and ends at one place. The induction is on the
first derivation; the second is cut by the token that both begin with. -/
theorem Derives.unique {phrase other : Phrase} {tokens rest otherRest : List Token}
    (first : Derives phrase tokens rest) (second : Derives other tokens otherRest)
    (same : phrase.sameKind other) : phrase = other ∧ rest = otherRest := by
  induction first generalizing other otherRest with
  | null => cases second <;> first | exact ⟨rfl, rfl⟩ | cases same
  | yes => cases second <;> first | exact ⟨rfl, rfl⟩ | cases same
  | no => cases second <;> first | exact ⟨rfl, rfl⟩ | cases same
  | number => cases second <;> first | exact ⟨rfl, rfl⟩ | cases same
  | string => cases second <;> first | exact ⟨rfl, rfl⟩ | cases same
  | emptyArray =>
      cases second with
      | emptyArray => exact ⟨rfl, rfl⟩
      | array items => exact absurd items not_derives_items_close_array
      | lastItem => cases same
      | item => cases same
  | array items induction =>
      cases second with
      | emptyArray => exact absurd items not_derives_items_close_array
      | array otherItems =>
          rcases induction otherItems trivial with ⟨sameItems, rfl⟩
          cases sameItems
          exact ⟨rfl, rfl⟩
      | lastItem => cases same
      | item => cases same
  | emptyObject =>
      cases second with
      | emptyObject => exact ⟨rfl, rfl⟩
      | object members => cases members
      | lastItem => cases same
      | item => cases same
  | object members induction =>
      cases second with
      | emptyObject => cases members
      | object otherMembers =>
          rcases induction otherMembers trivial with ⟨sameMembers, rfl⟩
          cases sameMembers
          exact ⟨rfl, rfl⟩
      | lastItem => cases same
      | item => cases same
  | lastItem _ induction =>
      cases other with
      | items =>
          cases second with
          | lastItem otherItem =>
              rcases induction otherItem trivial with ⟨sameItem, sameRest⟩
              cases sameItem
              cases sameRest
              exact ⟨rfl, rfl⟩
          | item otherItem => cases (induction otherItem trivial).2
      | value => cases same
      | members => cases same
  | item _ _ induction inductionLater =>
      cases other with
      | items =>
          cases second with
          | lastItem otherItem => cases (induction otherItem trivial).2
          | item otherItem otherLater =>
              rcases induction otherItem trivial with ⟨sameItem, sameRest⟩
              cases sameItem
              cases sameRest
              rcases inductionLater otherLater trivial with ⟨sameLater, rfl⟩
              cases sameLater
              exact ⟨rfl, rfl⟩
      | value => cases same
      | members => cases same
  | lastMember _ induction =>
      cases second with
      | lastMember otherValue =>
          rcases induction otherValue trivial with ⟨sameValue, sameRest⟩
          cases sameValue
          cases sameRest
          exact ⟨rfl, rfl⟩
      | member otherValue => cases (induction otherValue trivial).2
      | _ => cases same
  | member _ _ induction inductionLater =>
      cases second with
      | lastMember otherValue => cases (induction otherValue trivial).2
      | member otherValue otherLater =>
          rcases induction otherValue trivial with ⟨sameValue, sameRest⟩
          cases sameValue
          cases sameRest
          rcases inductionLater otherLater trivial with ⟨sameLater, rfl⟩
          cases sameLater
          exact ⟨rfl, rfl⟩
      | _ => cases same

/-- A text says at most one thing. -/
theorem IsText.unique {text : List Char} {tree other : Tree} (first : IsText text tree)
    (second : IsText text other) : tree = other := by
  rcases first with ⟨tokens, spelled, derived⟩
  rcases second with ⟨others, otherSpelled, otherDerived⟩
  cases spelled.unique otherSpelled
  cases (derived.unique otherDerived trivial).1
  rfl

end TableQuery.Json
