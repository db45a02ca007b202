import TableQuery.Number.Rounding

/-!
Whole numbers written in base 16, 8 or 2. Each digit is appended in double precision, so a long
numeral is rounded after every digit and not once at the end.
-/

namespace TableQuery

def digitValue? (radix : Nat) (character : Char) : Option Nat :=
  let code := character.toNat
  let value? : Option Nat :=
    if 48 ≤ code ∧ code ≤ 57 then some (code - 48)
    else if 97 ≤ code ∧ code ≤ 102 then some (code - 87)
    else if 65 ≤ code ∧ code ≤ 70 then some (code - 55)
    else none
  value?.filter (· < radix)

namespace Binary64

/-- `radix` times the number plus `digit`, rounded. What the rounding loses is missing when the next
digit comes, which is why a long numeral may end beside the nearest double. -/
def appendDigit (radix digit : Nat) : Binary64 → Binary64
  | finite negative magnitude =>
      ofQuotient negative (magnitude.quanta * radix + digit * quantaPerOne) 1
  | other => other

def ofRadixDigits (radix : Nat) (digits : List Nat) : Binary64 :=
  digits.foldl (fun number digit => number.appendDigit radix digit) (finite false .zero)

end Binary64

def radixOfMark? : Char → Option Nat
  | 'x' | 'X' => some 16
  | 'o' | 'O' => some 8
  | 'b' | 'B' => some 2
  | _ => none

/-- Reads `0x`, `0o` or `0b` and at least one digit of that base. There is no sign. -/
def readRadixNumeral? : List Char → Option Binary64
  | '0' :: mark :: numeral => do
      let radix ← radixOfMark? mark
      let digits ← numeral.mapM (digitValue? radix)
      if digits.isEmpty then none else some (.ofRadixDigits radix digits)
  | _ => none

end TableQuery
