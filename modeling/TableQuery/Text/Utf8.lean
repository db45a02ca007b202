/-!
UTF-8 as a strict reading of bytes. A character is read when its own encoding is what the bytes
start with, so overlong forms, surrogates and cut sequences are all refused by one comparison.
-/

namespace TableQuery.Utf8

def encode (text : List Char) : List UInt8 := text.flatMap String.utf8EncodeChar

/-- The code point that the payload bits of the first sequence spell, before any check that the
sequence is well formed. -/
def leadingCodePoint : List UInt8 → Nat
  | [] => 0
  | lead :: rest =>
      let payload (byte : Option UInt8) : Nat := (byte.getD 0).toNat % 64
      if lead < 0x80 then lead.toNat
      else if lead < 0xE0 then lead.toNat % 32 * 64 + payload rest[0]?
      else if lead < 0xF0 then
        lead.toNat % 16 * 4096 + payload rest[0]? * 64 + payload rest[1]?
      else
        lead.toNat % 8 * 262144 + payload rest[0]? * 4096 + payload rest[1]? * 64 +
          payload rest[2]?

def decodeFirst (bytes : List UInt8) : Option (Char × List UInt8) :=
  let character := Char.ofNat (leadingCodePoint bytes)
  let encoded := String.utf8EncodeChar character
  if encoded.isPrefixOf bytes then some (character, bytes.drop encoded.length) else none

theorem eq_append_of_decode_first {bytes rest : List UInt8} {character : Char}
    (read : decodeFirst bytes = some (character, rest)) :
    bytes = String.utf8EncodeChar character ++ rest := by
  unfold decodeFirst at read
  generalize Char.ofNat (leadingCodePoint bytes) = candidate at read
  dsimp only at read
  split at read
  case isTrue isStart =>
    obtain ⟨suffix, rfl⟩ := List.isPrefixOf_iff_prefix.1 isStart
    simp only [Option.some.injEq, Prod.mk.injEq, List.drop_left] at read
    obtain ⟨rfl, rfl⟩ := read
    rfl
  case isFalse => simp at read

theorem length_lt_of_decode_first {bytes rest : List UInt8} {character : Char}
    (read : decodeFirst bytes = some (character, rest)) : rest.length < bytes.length := by
  rw [eq_append_of_decode_first read, List.length_append, String.length_utf8EncodeChar]
  have := Char.utf8Size_pos character
  omega

theorem toNat_lt (character : Char) : character.toNat < 1114112 := by
  rcases character.valid with low | ⟨_, high⟩
  · exact Nat.lt_trans low (by decide)
  · exact high

theorem leading_code_point_encode (character : Char) (rest : List UInt8) :
    leadingCodePoint (String.utf8EncodeChar character ++ rest) = character.toNat := by
  have bound := toNat_lt character
  simp only [String.utf8EncodeChar, Char.toNat_val]
  repeat' split
  all_goals
    simp only [leadingCodePoint, List.cons_append, List.nil_append, UInt8.lt_iff_toNat_lt,
      UInt8.toNat_ofNat', List.getElem?_cons_zero, List.getElem?_cons_succ, Option.getD_some]
    repeat' split
    all_goals simp_all
    all_goals omega

theorem decode_first_encode (character : Char) (rest : List UInt8) :
    decodeFirst (String.utf8EncodeChar character ++ rest) = some (character, rest) := by
  have starts : (String.utf8EncodeChar character).isPrefixOf
      (String.utf8EncodeChar character ++ rest) = true :=
    List.isPrefixOf_iff_prefix.2 (List.prefix_append _ _)
  rw [decodeFirst, leading_code_point_encode, Char.ofNat_toNat]
  simp only [starts, if_true, List.drop_left]

/-- Reads all bytes, or gives the number of bytes before the first sequence that is not UTF-8. -/
def decodeFrom (offset : Nat) (bytes : List UInt8) : Except Nat (List Char) :=
  match bytes with
  | [] => .ok []
  | lead :: tail =>
      match _read : decodeFirst (lead :: tail) with
      | none => .error offset
      | some (character, rest) =>
          (decodeFrom (offset + character.utf8Size) rest).map (character :: ·)
termination_by bytes.length
decreasing_by exact length_lt_of_decode_first _read

def decode (bytes : List UInt8) : Except Nat (List Char) := decodeFrom 0 bytes

theorem decode_from_encode (text : List Char) (offset : Nat) :
    decodeFrom offset (encode text) = .ok text := by
  induction text generalizing offset with
  | nil => rw [encode, List.flatMap_nil, decodeFrom]
  | cons character rest induction =>
      have read := decode_first_encode character (encode rest)
      have nonempty :
          ∃ lead tail, String.utf8EncodeChar character ++ encode rest = lead :: tail := by
        cases whole : String.utf8EncodeChar character ++ encode rest with
        | nil => simp [whole, decodeFirst, leadingCodePoint] at read
        | cons lead tail => exact ⟨lead, tail, rfl⟩
      obtain ⟨lead, tail, whole⟩ := nonempty
      rw [encode, List.flatMap_cons, ← encode, whole, decodeFrom]
      rw [whole] at read
      split
      · simp_all
      · rename_i found
        rw [read] at found
        cases found
        rw [induction]
        rfl

theorem decode_encode (text : List Char) : decode (encode text) = .ok text :=
  decode_from_encode text 0

theorem eq_encode_of_decode_from {bytes : List UInt8} {text : List Char} {offset : Nat}
    (read : decodeFrom offset bytes = .ok text) : bytes = encode text := by
  fun_induction decodeFrom offset bytes generalizing text with
  | case1 =>
      cases read
      rfl
  | case2 => cases read
  | case3 offset lead tail character rest first induction =>
      cases decoded : decodeFrom (offset + character.utf8Size) rest with
      | error index => simp [decoded, Except.map] at read
      | ok suffix =>
          simp only [decoded, Except.map, Except.ok.injEq] at read
          rw [← read, eq_append_of_decode_first first, induction decoded]
          rfl

/-- Exactly the encodings are read, each as the text that it encodes. -/
theorem decode_eq_ok_iff {bytes : List UInt8} {text : List Char} :
    decode bytes = .ok text ↔ bytes = encode text :=
  ⟨eq_encode_of_decode_from, fun same => same ▸ decode_encode text⟩

end TableQuery.Utf8
