import TableQuery.Number.Shortest

/-!
How a double is written and read. A decimal is written with all its places, or as one digit before
the point with a power of ten, and neither adds a fraction that the number does not have. What is
read is an optional sign, then a decimal or one of the words for infinity and NaN in any mixture of
cases.
-/

namespace TableQuery

namespace Decimal

def positional (decimal : Decimal) : List Char :=
  let digits := Nat.toDigits 10 decimal.digits
  let places := (-decimal.exponent).toNat
  if places = 0 then digits ++ List.replicate decimal.exponent.toNat '0'
  else
    let padded := List.replicate (places + 1 - digits.length) '0' ++ digits
    padded.take (padded.length - places) ++ '.' :: padded.drop (padded.length - places)

def leadingExponent (decimal : Decimal) : Int :=
  decimal.exponent + (Nat.toDigits 10 decimal.digits).length - 1

def scientific (decimal : Decimal) : List Char :=
  let exponent := decimal.leadingExponent
  let sign := if exponent < 0 then '-' else '+'
  let power := 'e' :: sign :: Nat.toDigits 10 exponent.natAbs
  match Nat.toDigits 10 decimal.digits with
  | [] => power
  | [digit] => digit :: power
  | digit :: rest => digit :: '.' :: rest ++ power

end Decimal

def withSign (negative : Bool) (text : List Char) : List Char :=
  if negative then '-' :: text else text

namespace Binary64

/-- The shortest digits in full, with a caller's word for infinity. -/
def plain (infinityWord : List Char) : Binary64 → List Char
  | nan => "NaN".toList
  | infinite negative => withSign negative infinityWord
  | finite negative magnitude =>
      withSign negative (magnitude.shortest .awayFromZero).positional

end Binary64

def readUnsignedDouble? (negative : Bool) (text : List Char) : Option Binary64 :=
  let word := text.map Char.toLower
  if word = "inf".toList ∨ word = "infinity".toList then some (.infinite negative)
  else if word = "nan".toList then some .nan
  else (Decimal.read? text).map (·.toBinary64 negative)

def readDouble? (text : List Char) : Option Binary64 :=
  let (negative, unsigned) := splitSign text
  readUnsignedDouble? negative unsigned

end TableQuery
