import TableQuery.Number.Rounding

/-!
Decimal numbers, their written form, and the double nearest to one. The written form is digits with
at most one point and an optional exponent; the sign is read apart.
-/

namespace TableQuery

structure Decimal where
  digits : Nat
  exponent : Int
  deriving DecidableEq, Repr

namespace Decimal

/-- Beyond these exponents the answer is plain, and the powers of ten would be too large to build:
from `10 ^ 311` on everything is infinite, and below `10 ^ -330` everything rounds to zero. -/
def toBinary64 (negative : Bool) (decimal : Decimal) : Binary64 :=
  if decimal.digits = 0 then .finite negative .zero
  else if 310 < decimal.exponent then .infinite negative
  else if decimal.exponent + decimal.digits.log2 + 1 < -330 then .finite negative .zero
  else
    Binary64.ofQuotient negative
      (decimal.digits * Nat.pow 10 decimal.exponent.toNat * quantaPerOne)
      (Nat.pow 10 (-decimal.exponent).toNat)

end Decimal

def splitSign : List Char → Bool × List Char
  | '+' :: rest => (false, rest)
  | '-' :: rest => (true, rest)
  | text => (false, text)

def allDigits (text : List Char) : Bool := !text.isEmpty && text.all Char.isDigit

def readExponent? : List Char → Option Int
  | [] => some 0
  | mark :: rest =>
      let (negative, digits) := splitSign rest
      if (mark = 'e' ∨ mark = 'E') ∧ allDigits digits then
        let size := Nat.ofDigitChars 10 digits 0
        some (if negative then -(size : Int) else size)
      else none

def splitFraction : List Char → List Char × List Char
  | '.' :: rest => (rest.takeWhile Char.isDigit, rest.dropWhile Char.isDigit)
  | text => ([], text)

/-- Reads an unsigned decimal. The point needs a digit on at least one of its sides. -/
def Decimal.read? (text : List Char) : Option Decimal :=
  let whole := text.takeWhile Char.isDigit
  let (fraction, suffix) := splitFraction (text.dropWhile Char.isDigit)
  if whole.isEmpty && fraction.isEmpty then none
  else do
    let exponent ← readExponent? suffix
    some ⟨Nat.ofDigitChars 10 (whole ++ fraction) 0, exponent - fraction.length⟩

end TableQuery
