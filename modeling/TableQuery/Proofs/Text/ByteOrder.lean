import Mathlib.Data.List.Lex
import Mathlib.Tactic.IntervalCases
import TableQuery.Text.Utf8

/-!
The order of texts by their bytes. A character is a first byte and then its lowest bits, six to a
byte. A longer sequence has a greater first byte, and in sequences of one length the first bytes
that differ decide as the code points do, so encoding keeps the order of texts by their code points.
-/

namespace TableQuery

def codePoints (text : List Char) : List Nat := text.map Char.toNat

theorem code_points_injective : codePoints.Injective := by
  apply List.map_injective_iff.2
  intro character other same
  exact Char.toNat_inj.1 same

namespace Utf8

def tailBytes (point : Nat) : Nat → List UInt8
  | 0 => []
  | count + 1 => UInt8.ofNat (point / 64 ^ count % 64 + 128) :: tailBytes point count

/-- What the first byte adds to the highest bits, to tell how many bytes come after it. -/
def leadMark : Nat → Nat
  | 0 => 0
  | 1 => 192
  | 2 => 224
  | _ => 240

/-- The least code point that needs so many bytes after the first one. Four are never needed, but a
bound above the last length saves a case. -/
def leastPoint : Nat → Nat
  | 0 => 0
  | 1 => 128
  | 2 => 2048
  | 3 => 65536
  | _ => 1114112

structure IsSequence (character : Char) (count : Nat) : Prop where
  count_le : count ≤ 3
  least_le : leastPoint count ≤ character.toNat
  lt_least : character.toNat < leastPoint (count + 1)
  bytes : String.utf8EncodeChar character =
    UInt8.ofNat (leadMark count + character.toNat / 64 ^ count) ::
      tailBytes character.toNat count

theorem exists_is_sequence (character : Char) : ∃ count, IsSequence character count := by
  have bound := toNat_lt character
  have bytes := String.utf8EncodeChar.eq_1 character
  simp only [Char.toNat_val] at bytes
  by_cases one : character.toNat ≤ 127
  · refine ⟨0, by decide, Nat.zero_le _, Nat.lt_succ_of_le one, ?_⟩
    rw [bytes, if_pos one]
    simp [tailBytes, leadMark]
  by_cases two : character.toNat ≤ 2047
  · refine ⟨1, by decide, Nat.lt_of_not_le one, Nat.lt_succ_of_le two, ?_⟩
    rw [bytes, if_neg one, if_pos two, Nat.mod_eq_of_lt (by omega)]
    simp [tailBytes, leadMark, Nat.add_comm]
  by_cases three : character.toNat ≤ 65535
  · refine ⟨2, by decide, Nat.lt_of_not_le two, Nat.lt_succ_of_le three, ?_⟩
    rw [bytes, if_neg one, if_neg two, if_pos three, Nat.mod_eq_of_lt (by omega)]
    simp [tailBytes, leadMark, Nat.add_comm]
  · refine ⟨3, by decide, Nat.lt_of_not_le three, bound, ?_⟩
    rw [bytes, if_neg one, if_neg two, if_neg three, Nat.mod_eq_of_lt (by omega)]
    simp [tailBytes, leadMark, Nat.add_comm]

/-- Between code points with the same higher bits the first of the last bytes that differs decides,
whatever comes after it. -/
theorem tail_bytes_append_lt {point other count : Nat}
    (sameHigh : point / 64 ^ count = other / 64 ^ count)
    (less : point < other) (rest others : List UInt8) :
    tailBytes point count ++ rest < tailBytes other count ++ others := by
  induction count with
  | zero =>
      rw [Nat.pow_zero, Nat.div_one, Nat.div_one] at sameHigh
      exact absurd sameHigh (Nat.ne_of_lt less)
  | succ count induction =>
      rw [Nat.pow_succ, ← Nat.div_div_eq_div_mul, ← Nat.div_div_eq_div_mul] at sameHigh
      have ordered : point / 64 ^ count ≤ other / 64 ^ count :=
        Nat.div_le_div_right (Nat.le_of_lt less)
      rw [tailBytes, tailBytes, List.cons_append, List.cons_append, List.cons_lt_cons_iff]
      rcases Nat.lt_or_eq_of_le ordered with lessHere | sameHere
      · left
        rw [UInt8.lt_iff_toNat_lt, UInt8.toNat_ofNat', UInt8.toNat_ofNat']
        omega
      · right
        exact ⟨by rw [sameHere], induction sameHere⟩

theorem least_point_le_least_point {count size : Nat} (fewer : count < size) (bound : size ≤ 3) :
    leastPoint (count + 1) ≤ leastPoint size := by
  interval_cases size <;> interval_cases count <;> decide

/-- A sequence with more bytes has a greater first byte, whatever the highest bits are. -/
theorem IsSequence.lead_byte_lt_lead_mark {character : Char} {count size : Nat}
    (sequence : IsSequence character count) (fewer : count < size) (bound : size ≤ 3) :
    leadMark count + character.toNat / 64 ^ count < leadMark size := by
  have high := sequence.lt_least
  interval_cases size <;> interval_cases count <;> simp only [leastPoint, leadMark] at high ⊢ <;>
    omega

theorem IsSequence.lead_byte_lt {character : Char} {count : Nat}
    (sequence : IsSequence character count) :
    leadMark count + character.toNat / 64 ^ count < 256 := by
  have bound := sequence.count_le
  have high := sequence.lt_least
  interval_cases count <;> simp only [leastPoint, leadMark] at high ⊢ <;> omega

/-- Of two first bytes the one of the greater code point is not the lesser one, and where they are
equal the sequences have one length and the code points the same highest bits. -/
theorem lead_byte_cases {character other : Char} {count size : Nat}
    (less : character.toNat < other.toNat) (sequence : IsSequence character count)
    (otherSequence : IsSequence other size) :
    leadMark count + character.toNat / 64 ^ count < leadMark size + other.toNat / 64 ^ size ∨
      count = size ∧ character.toNat / 64 ^ count = other.toNat / 64 ^ size := by
  rcases Nat.lt_trichotomy count size with fewer | rfl | more
  · left
    apply Nat.lt_of_lt_of_le _ (Nat.le_add_right _ _)
    exact sequence.lead_byte_lt_lead_mark fewer otherSequence.count_le
  · rcases Nat.lt_or_eq_of_le (Nat.div_le_div_right (c := 64 ^ count) (Nat.le_of_lt less))
      with lessHigh | sameHigh
    · exact .inl (Nat.add_lt_add_left lessHigh _)
    · exact .inr ⟨rfl, sameHigh⟩
  · have apart := least_point_le_least_point more sequence.count_le
    have low := sequence.least_le
    have high := otherSequence.lt_least
    omega

/-- The lesser of two characters decides a comparison of bytes, whatever comes after it. -/
theorem utf8EncodeChar_append_lt {character other : Char} (less : character.toNat < other.toNat)
    (rest others : List UInt8) :
    String.utf8EncodeChar character ++ rest < String.utf8EncodeChar other ++ others := by
  obtain ⟨count, sequence⟩ := exists_is_sequence character
  obtain ⟨size, otherSequence⟩ := exists_is_sequence other
  rw [sequence.bytes, otherSequence.bytes, List.cons_append, List.cons_append,
    List.cons_lt_cons_iff]
  rcases lead_byte_cases less sequence otherSequence with lessLead | ⟨rfl, sameHigh⟩
  · left
    rw [UInt8.lt_iff_toNat_lt, UInt8.toNat_ofNat', UInt8.toNat_ofNat',
      Nat.mod_eq_of_lt sequence.lead_byte_lt, Nat.mod_eq_of_lt otherSequence.lead_byte_lt]
    exact lessLead
  · right
    exact ⟨by rw [sameHigh], tail_bytes_append_lt sameHigh less rest others⟩

theorem encode_lt_encode {left right : List Char} (less : codePoints left < codePoints right) :
    encode left < encode right := by
  induction left generalizing right with
  | nil =>
      cases right with
      | nil => exact absurd less (List.lt_irrefl [])
      | cons character rest =>
          obtain ⟨count, sequence⟩ := exists_is_sequence character
          rw [encode, encode, List.flatMap_nil, List.flatMap_cons, sequence.bytes]
          exact List.nil_lt_cons _ _
  | cons character rest induction =>
      cases right with
      | nil => exact absurd less (List.not_lt_nil _)
      | cons other others =>
          rw [codePoints, codePoints, List.map_cons, List.map_cons, List.cons_lt_cons_iff] at less
          rw [encode, encode, List.flatMap_cons, List.flatMap_cons, ← encode, ← encode]
          rcases less with lessFirst | ⟨sameFirst, lessRest⟩
          · exact utf8EncodeChar_append_lt lessFirst _ _
          · rw [Char.toNat_inj.1 sameFirst]
            exact List.append_left_lt (induction lessRest)

theorem encode_eq_encode_iff {left right : List Char} :
    encode left = encode right ↔ codePoints left = codePoints right := by
  constructor
  · intro same
    have read := decode_encode left
    rw [same, decode_encode] at read
    exact congrArg codePoints (Except.ok.inj read).symm
  · intro same
    rw [code_points_injective same]

/-- Comparing two texts byte by byte is comparing them code point by code point. One direction is an
induction on both texts, the other one follows because the order of code points is total. -/
theorem encode_lt_encode_iff {left right : List Char} :
    encode left < encode right ↔ codePoints left < codePoints right := by
  constructor
  · intro lessBytes
    rcases lt_trichotomy (codePoints left) (codePoints right) with less | same | greater
    · exact less
    · rw [encode_eq_encode_iff.2 same] at lessBytes
      exact absurd lessBytes (List.lt_irrefl _)
    · exact absurd lessBytes (List.lt_asymm (encode_lt_encode greater))
  · exact encode_lt_encode

end Utf8

end TableQuery
