import TableQuery.Proofs.Report.JsonNumber

/-!
The JSON text of rows spells the same tokens in either layout. Every piece of text is followed
through with whatever stands behind it, as only a number depends on what follows.
-/

namespace TableQuery.Json

def OpensNoNumber (text : List Char) : Prop :=
  ∀ character ∈ text.head?, isNumberCharacter character = false

/-- A text spells these tokens in front of any text that does not lengthen a number. A number has no
closing mark, so this is needed to put texts together. -/
def Writes (tokens : List Token) (text : List Char) : Prop :=
  ∀ {later : List Token} {suffix : List Char}, Spells later suffix → OpensNoNumber suffix →
    Spells (tokens ++ later) (text ++ suffix)

theorem Spells.token_append {token : Token} {tokens : List Token} {text rest : List Char}
    (spelled : SpellsToken token text rest) (later : Spells tokens rest) :
    Spells (token :: tokens) text := by
  have noGap : ∀ character ∈ ([] : List Char), isBlank character = true := by simp
  exact .token noGap spelled later

theorem Spells.sign_append {tokens : List Token} {rest : List Char} (later : Spells tokens rest)
    (sign : Sign) : Spells (.sign sign :: tokens) (sign.spelling ++ rest) :=
  .token_append (.sign sign rest) later

theorem Spells.blank_append {tokens : List Token} {text gap : List Char}
    (spelled : Spells tokens text) (blank : ∀ character ∈ gap, isBlank character = true) :
    Spells tokens (gap ++ text) := by
  cases spelled with
  | ending blankEnd => exact .ending (List.forall_mem_append.2 ⟨blank, blankEnd⟩)
  | token blankFront spelledToken later =>
      rw [← List.append_assoc]
      exact .token (List.forall_mem_append.2 ⟨blank, blankFront⟩) spelledToken later

theorem code_unit?_of_control :
    ∀ unit < 32, codeUnit? '0' '0' (Nat.digitChar (unit / 16)) (Nat.digitChar (unit % 16)) =
      some unit := by decide

theorem StringBody.escape_append {text body rest : List Char} (later : StringBody text body rest)
    (character : Char) : StringBody (escape character ++ text) (character :: body) rest := by
  by_cases quote : character = '"'
  · subst quote
    exact .short rfl later
  by_cases backslash : character = '\\'
  · subst backslash
    exact .short rfl later
  by_cases backspace : character = '\x08'
  · subst backspace
    exact .short rfl later
  by_cases formFeed : character = '\x0c'
  · subst formFeed
    exact .short rfl later
  by_cases lineFeed : character = '\n'
  · subst lineFeed
    exact .short rfl later
  by_cases carriageReturn : character = '\r'
  · subst carriageReturn
    exact .short rfl later
  by_cases tab : character = '\t'
  · subst tab
    exact .short rfl later
  rw [escape, if_neg quote, if_neg backslash, if_neg backspace, if_neg formFeed, if_neg lineFeed,
    if_neg carriageReturn, if_neg tab]
  by_cases control : character.toNat < 32
  · have spelled := code_unit?_of_control character.toNat control
    have scalar : ¬IsHighSurrogate character.toNat ∧ ¬IsLowSurrogate character.toNat := by
      unfold IsHighSurrogate IsLowSurrogate
      omega
    have unit := StringBody.unit spelled scalar later
    rw [Char.ofNat_toNat] at unit
    rw [if_pos control]
    exact unit
  · rw [if_neg control]
    exact .plain ⟨Nat.le_of_not_lt control, quote, backslash⟩ later

theorem string_body_flatMap_escape (text rest : List Char) :
    StringBody (text.flatMap escape ++ '"' :: rest) text rest := by
  induction text with
  | nil => exact .close rest
  | cons character text induction =>
      rw [List.flatMap_cons, List.append_assoc]
      exact induction.escape_append character

theorem Spells.string_append {tokens : List Token} {rest : List Char} (later : Spells tokens rest)
    (text : String) : Spells (.string text :: tokens) (string text ++ rest) := by
  have spelled := SpellsToken.string (string_body_flatMap_escape text.toList rest)
  rw [String.ofList_toList] at spelled
  have split : string text ++ rest = '"' :: (text.toList.flatMap escape ++ '"' :: rest) := by
    simp [string]
  rw [split]
  exact .token_append spelled later

def tokenOf : Value → Token
  | .number (.finite negative magnitude) => .number (number (.finite negative magnitude))
  | .string text => .string text
  | _ => .sign .null

theorem writes_value (value : Value) : Writes [tokenOf value] (Json.value value) := by
  intro later suffix spelled ends
  cases value with
  | absent => exact spelled.sign_append .null
  | string text => exact spelled.string_append text
  | number double =>
      cases double with
      | nan => exact spelled.sign_append .null
      | infinite negative => exact spelled.sign_append .null
      | finite negative magnitude =>
          have isNumber := (spells_double_number negative magnitude).isNumber
          exact .token_append (.number isNumber ends) spelled

section Layouts

variable {Item : Type} (layout : Layout)

theorem is_blank_of_mem_line_break (level : Nat) :
    ∀ character ∈ layout.lineBreak level, isBlank character = true := by
  cases layout with
  | compact => simp [Layout.lineBreak]
  | indented =>
      rw [Layout.lineBreak, List.forall_mem_cons]
      refine ⟨rfl, ?_⟩
      intro character member
      rw [List.eq_of_mem_replicate member]
      rfl

theorem opens_no_number_line_break_append (level : Nat) {text : List Char}
    (opens : OpensNoNumber text) : OpensNoNumber (layout.lineBreak level ++ text) := by
  cases layout with
  | compact => exact opens
  | indented =>
      intro character first
      cases first
      rfl

theorem opens_no_number_sign_append (sign : Sign) (rest : List Char) :
    OpensNoNumber (sign.spelling ++ rest) := by
  intro character first
  cases sign <;> cases first <;> rfl

theorem intercalate_map_cons_cons {Piece : Type} (separator : List Piece)
    (pieces : Item → List Piece) (first second : Item) (others : List Item) :
    separator.intercalate ((first :: second :: others).map pieces) =
      pieces first ++ (separator ++ separator.intercalate ((second :: others).map pieces)) := by
  rw [List.map_cons, List.map_cons, List.intercalate_cons_cons, List.append_assoc]

theorem writes_join {text : Item → List Char} {tokens : Item → List Token} (level : Nat)
    {items : List Item} (each : ∀ item ∈ items, Writes (tokens item) (text item)) :
    Writes ([Token.sign .comma].intercalate (items.map tokens))
      ((',' :: layout.lineBreak level).intercalate (items.map text)) := by
  induction items with
  | nil => exact fun spelled _ => spelled
  | cons first others induction =>
      rw [List.forall_mem_cons] at each
      intro later suffix spelled ends
      cases others with
      | nil => simpa using each.1 spelled ends
      | cons second others =>
          have rest := induction each.2 spelled ends
          have broken := rest.blank_append (is_blank_of_mem_line_break layout level)
          have separated := broken.sign_append .comma
          have whole := each.1 separated (opens_no_number_sign_append .comma _)
          rw [intercalate_map_cons_cons, intercalate_map_cons_cons]
          simpa [Sign.spelling] using whole

def enclosedTokens (opening closing : Sign) (pieces : List (List Token)) : List Token :=
  .sign opening :: ([.sign .comma].intercalate pieces ++ [.sign closing])

theorem writes_enclose {text : Item → List Char} {tokens : Item → List Token} (level : Nat)
    {opening closing : Sign} {first last : Char} (opens : opening.spelling = [first])
    (closes : closing.spelling = [last]) {items : List Item}
    (each : ∀ item ∈ items, Writes (tokens item) (text item)) :
    Writes (enclosedTokens opening closing (items.map tokens))
      (layout.enclose level first last (items.map text)) := by
  intro later suffix spelled _
  have closed := spelled.sign_append closing
  cases items with
  | nil =>
      have whole := closed.sign_append opening
      rw [opens, closes] at whole
      exact whole
  | cons item items =>
      have broken := closed.blank_append (is_blank_of_mem_line_break layout level)
      have ends := opens_no_number_line_break_append layout level
        (opens_no_number_sign_append closing suffix)
      have joined := writes_join layout (level + 1) each broken ends
      have begun := joined.blank_append (is_blank_of_mem_line_break layout (level + 1))
      have whole := begun.sign_append opening
      rw [opens, closes] at whole
      simpa [enclosedTokens, Layout.enclose] using whole

end Layouts

section Rows

def fieldTokens (field : Field) : List Token :=
  [.string field.1, .sign .colon, tokenOf field.2]

def rowTokens (row : Row) : List Token :=
  enclosedTokens .openObject .closeObject (row.fields.map fieldTokens)

def tableTokens (table : List Row) : List Token :=
  enclosedTokens .openArray .closeArray (table.map rowTokens)

variable (layout : Layout)

theorem writes_field (field : Field) :
    Writes (fieldTokens field) (Json.field layout field.1 field.2) := by
  intro later suffix spelled ends
  have written := writes_value field.2 spelled ends
  have gap : ∀ character ∈ layout.colon.drop 1, isBlank character = true := by
    cases layout with
    | compact => exact List.forall_mem_nil _
    | indented => exact List.forall_mem_singleton.2 rfl
  have whole := ((written.blank_append gap).sign_append .colon).string_append field.1
  have colon : layout.colon = Sign.colon.spelling ++ layout.colon.drop 1 := by
    cases layout <;> rfl
  rw [Json.field, colon]
  simpa [fieldTokens] using whole

theorem writes_row (row : Row) : Writes (rowTokens row) (Json.row layout row) :=
  writes_enclose layout 1 rfl rfl fun field _ => writes_field layout field

theorem writes_rows (table : List Row) : Writes (tableTokens table) (rows layout table) :=
  writes_enclose layout 0 rfl rfl fun row _ => writes_row layout row

end Rows

end TableQuery.Json
