/-!
Double precision numbers as exact values. A finite magnitude is a whole number of quanta, a quantum
being the least positive double, `2 ^ -1074`, so comparing two doubles is comparing two integers.
-/

namespace TableQuery

/-- The distance between neighbouring doubles at a magnitude: one quantum up to `2 ^ 53` quanta,
and twice as much with every further doubling. -/
def spacing (quanta : Nat) : Nat := Nat.pow 2 (quanta.log2 - 52)

def quantaPerOne : Nat := Nat.pow 2 1074

def quantaLimit : Nat := Nat.pow 2 2098

theorem quanta_limit_pos : 0 < quantaLimit := by decide +kernel

structure Magnitude where
  quanta : Nat
  on_grid : spacing quanta ∣ quanta
  bounded : quanta < quantaLimit
  deriving DecidableEq

inductive Binary64 where
  | nan
  | infinite (negative : Bool)
  | finite (negative : Bool) (magnitude : Magnitude)
  deriving DecidableEq

namespace Magnitude

def zero : Magnitude := ⟨0, Nat.dvd_zero _, quanta_limit_pos⟩

def IsWhole (magnitude : Magnitude) : Prop := quantaPerOne ∣ magnitude.quanta

instance (magnitude : Magnitude) : Decidable magnitude.IsWhole :=
  inferInstanceAs (Decidable (_ ∣ _))

def wholePart (magnitude : Magnitude) : Nat := magnitude.quanta / quantaPerOne

end Magnitude

namespace Binary64

def negate : Binary64 → Binary64
  | nan => nan
  | infinite negative => infinite (!negative)
  | finite negative magnitude => finite (!negative) magnitude

def signed (negative : Bool) (quanta : Nat) : Int :=
  if negative then -(quanta : Int) else quanta

/-- The place of a number on the line. Both zeros have rank 0, an infinity lies beyond all finite
numbers, and NaN has no place. -/
def rank? : Binary64 → Option Int
  | nan => none
  | infinite negative => some (signed negative quantaLimit)
  | finite negative magnitude => some (signed negative magnitude.quanta)

def compare? (left right : Binary64) : Option Ordering := do
  let leftRank ← left.rank?
  let rightRank ← right.rank?
  some (compare leftRank rightRank)

def equals (left right : Binary64) : Bool := left.compare? right == some .eq

end Binary64

end TableQuery
