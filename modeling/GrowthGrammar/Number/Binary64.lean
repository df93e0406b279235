import GrowthGrammar.Number.Rounding

/-!
# What the bits of a double denote

A double is not a number, infinite, or a mantissa times a power of two. Conversions to integers
are exact and go through this view.
-/

namespace GrowthGrammar.Number

inductive Binary64
  | nan
  | infinite (negative : Bool)
  | finite (negative : Bool) (mantissa : Nat) (exponent : Int)
  deriving DecidableEq, Repr

namespace Binary64

def ofBits (bits : Nat) : Binary64 :=
  let negative := decide (0x8000000000000000 ≤ bits)
  let field : Nat := bits / 0x10000000000000 % 0x800
  let fraction : Nat := bits % 0x10000000000000
  if field = 2047 then
    if fraction = 0 then .infinite negative else .nan
  else if field = 0 then .finite negative fraction (-1074)
  else .finite negative (0x10000000000000 + fraction) ((field : Int) - 1075)

def ofFloat (x : Float) : Binary64 :=
  ofBits x.toBits.toNat

example : ofBits 0x4008000000000000 = .finite false 0x18000000000000 (-51) := by decide

end Binary64

/-! Cutting a double off at the point. -/

inductive TruncationError
  | notANumber
  | infinite
  deriving DecidableEq, Repr

def TruncationError.message : TruncationError → String
  | notANumber => "cannot convert float NaN to integer"
  | infinite => "cannot convert float infinity to integer"

def withSign (negative : Bool) (magnitude : Nat) : Int :=
  if negative then -(magnitude : Int) else magnitude

def truncate (x : Float) : Except TruncationError Int :=
  match Binary64.ofFloat x with
  | .nan => .error .notANumber
  | .infinite _ => .error .infinite
  | .finite negative mantissa exponent =>
      let (numerator, denominator) := scale 2 mantissa 1 exponent
      .ok (withSign negative (numerator / denominator))

/-- The integer that a double is equal to, if there is one. -/
def integerOf? (x : Float) : Option Int :=
  match Binary64.ofFloat x with
  | .finite negative mantissa exponent =>
      let (numerator, denominator) := scale 2 mantissa 1 exponent
      if numerator % denominator = 0 then some (withSign negative (numerator / denominator))
      else none
  | _ => none

def isFinite (x : Float) : Bool :=
  match Binary64.ofFloat x with
  | .finite .. => true
  | _ => false

/-- The double nearest to an integer; infinite when it is too large. -/
def ofInt (n : Int) : Float :=
  nearestFloat (n < 0) n.natAbs 1

/-- The double nearest to an integer, unless it is too large for a double. -/
def ofInt? (n : Int) : Option Float :=
  if nearestBits n.natAbs 1 < infinityBits then some (ofInt n) else none

end GrowthGrammar.Number
