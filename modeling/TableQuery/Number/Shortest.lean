import TableQuery.Number.Decimal

/-!
The shortest decimal that reads back as a given double. Powers of ten are tried from the largest
down, so the first one with a multiple that reads back leaves the fewest digits; of two such
multiples the nearer to the double is taken.
-/

namespace TableQuery

inductive TieRule where
  | toEven
  | awayFromZero
  deriving DecidableEq, Repr

namespace Magnitude

def ReadsBack (magnitude : Magnitude) (decimal : Decimal) : Prop :=
  decimal.toBinary64 false = .finite false magnitude

instance (magnitude : Magnitude) (decimal : Decimal) : Decidable (magnitude.ReadsBack decimal) :=
  inferInstanceAs (Decidable (_ = _))

/-- Of the two multiples of `10 ^ exponent` around the magnitude, the one to write, if any. Both may
read back, and then the nearer one is taken, or the one that the tie rule says. -/
def multipleAt (tie : TieRule) (magnitude : Magnitude) (exponent : Int) : Option Decimal :=
  let numerator := magnitude.quanta * Nat.pow 10 (-exponent).toNat
  let denominator := quantaPerOne * Nat.pow 10 exponent.toNat
  let below : Decimal := ⟨numerator / denominator, exponent⟩
  let above : Decimal := ⟨numerator / denominator + 1, exponent⟩
  let remainder := numerator % denominator
  let prefersBelow : Bool :=
    2 * remainder < denominator ||
      (2 * remainder == denominator && tie == .toEven && below.digits % 2 == 0)
  if magnitude.ReadsBack below ∧ (prefersBelow ∨ ¬magnitude.ReadsBack above) then some below
  else if magnitude.ReadsBack above then some above
  else none

/-- At `10 ^ -1074` the magnitude itself is a multiple, so the search always ends with a decimal. -/
def shortestFrom (tie : TieRule) (magnitude : Magnitude) : Nat → Decimal
  | 0 => ⟨magnitude.quanta * Nat.pow 5 1074, -1074⟩
  | depth + 1 =>
      match multipleAt tie magnitude ((depth + 1 : Nat) - 1074) with
      | some decimal => decimal
      | none => shortestFrom tie magnitude depth

def shortest (tie : TieRule) (magnitude : Magnitude) : Decimal :=
  if magnitude.quanta = 0 then ⟨0, 0⟩
  else shortestFrom tie magnitude ((Nat.toDigits 10 magnitude.wholePart).length + 1074)

end Magnitude

end TableQuery
