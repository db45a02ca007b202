import TableQuery.Text.Utf8

/-!
ASCII in UTF-8. An ASCII character is its own byte, and no other character has a byte below 128, so
an encoded text can be searched for an ASCII character byte by byte.
-/

namespace TableQuery

def asciiByte (character : Char) : UInt8 := UInt8.ofNat character.toNat

theorem toNat_ascii_byte {character : Char} (ascii : character.toNat < 128) :
    (asciiByte character).toNat = character.toNat := by
  rw [asciiByte, UInt8.toNat_ofNat', Nat.mod_eq_of_lt]
  omega

theorem ascii_byte_inj {character other : Char} (ascii : character.toNat < 128)
    (otherAscii : other.toNat < 128) (same : asciiByte character = asciiByte other) :
    character = other := by
  apply Char.toNat_inj.1
  rw [← toNat_ascii_byte ascii, same, toNat_ascii_byte otherAscii]

namespace Utf8

theorem utf8EncodeChar_of_ascii {character : Char} (ascii : character.toNat < 128) :
    String.utf8EncodeChar character = [asciiByte character] := by
  have low : character.val.toNat ≤ 127 := Nat.le_of_lt_succ ascii
  simp only [String.utf8EncodeChar, if_pos low]
  rfl

theorem le_toNat_of_mem_utf8EncodeChar {character : Char} (beyond : 128 ≤ character.toNat) :
    ∀ byte ∈ String.utf8EncodeChar character, 128 ≤ byte.toNat := by
  have notLow : ¬character.val.toNat ≤ 127 := Nat.not_le_of_gt beyond
  simp only [String.utf8EncodeChar, if_neg notLow]
  repeat' split
  all_goals
    simp only [List.forall_mem_cons, UInt8.toNat_ofNat', List.not_mem_nil, false_implies,
      implies_true, and_true]
    omega

theorem mem_utf8EncodeChar_iff {character sign : Char} (ascii : sign.toNat < 128) :
    asciiByte sign ∈ String.utf8EncodeChar character ↔ sign = character := by
  by_cases low : character.toNat < 128
  · rw [utf8EncodeChar_of_ascii low, List.mem_singleton]
    constructor
    · exact ascii_byte_inj ascii low
    · exact congrArg asciiByte
  · constructor
    · intro member
      have high := le_toNat_of_mem_utf8EncodeChar (Nat.le_of_not_lt low) _ member
      rw [toNat_ascii_byte ascii] at high
      omega
    · rintro rfl
      exact absurd ascii low

/-- An ASCII character stands in a text exactly when its byte stands in the encoding. -/
theorem mem_encode_iff {sign : Char} (ascii : sign.toNat < 128) {text : List Char} :
    asciiByte sign ∈ encode text ↔ sign ∈ text := by
  rw [encode, List.mem_flatMap]
  constructor
  · rintro ⟨character, member, byte⟩
    rwa [(mem_utf8EncodeChar_iff ascii).1 byte]
  · intro member
    exact ⟨sign, member, (mem_utf8EncodeChar_iff ascii).2 rfl⟩

theorem encode_append (front back : List Char) :
    encode (front ++ back) = encode front ++ encode back := List.flatMap_append

theorem encode_cons_of_ascii {character : Char} (ascii : character.toNat < 128)
    (rest : List Char) : encode (character :: rest) = asciiByte character :: encode rest := by
  rw [encode, List.flatMap_cons, utf8EncodeChar_of_ascii ascii]
  rfl

end Utf8

end TableQuery
