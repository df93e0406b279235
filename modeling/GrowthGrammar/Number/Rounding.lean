/-!
# Rounding a quotient

Quotients of natural numbers rounded to the nearest natural number, and to the nearest double.
-/

namespace GrowthGrammar.Number

/-- The quotient rounded to the nearest number; a tie goes to the even neighbour. -/
def roundHalfEven (numerator denominator : Nat) : Nat :=
  let quotient := numerator / denominator
  let remainder := numerator % denominator
  if 2 * remainder < denominator then quotient
  else if denominator < 2 * remainder then quotient + 1
  else quotient + quotient % 2

example : [(5, 2), (7, 2), (9, 4), (11, 4)].map (fun (n, d) => roundHalfEven n d) =
    [2, 4, 2, 3] := by
  decide

/-- A quotient with a power of a base moved into the numerator or the denominator. -/
def scale (base : Nat) (numerator denominator : Nat) (exponent : Int) : Nat × Nat :=
  if 0 ≤ exponent then (numerator * Nat.pow base exponent.toNat, denominator)
  else (numerator, denominator * Nat.pow base (-exponent).toNat)

/-- The largest `e` with `2 ^ e` at most the quotient of two positive numbers. -/
def floorLog2 (numerator denominator : Nat) : Int :=
  let estimate : Int := (numerator.log2 : Int) - denominator.log2
  let (left, right) := scale 2 numerator denominator (-estimate)
  if left < right then estimate - 1 else estimate

/-- The bits of positive infinity, one more than those of the largest finite double. -/
def infinityBits : Nat :=
  0x7ff0000000000000

/-- The bits of the double nearest to a quotient. A double above zero is `m * 2 ^ (k - 1074)`, and
its bits are `k * 2 ^ 52 + m`: with `k = 0` for the smallest, and else with `m` at least `2 ^ 52`.
A carry out of the mantissa therefore ends in the exponent, and what is too large is infinite. -/
def nearestBits (numerator denominator : Nat) : Nat :=
  if numerator = 0 then 0
  else
    let exponent := max (floorLog2 numerator denominator - 52) (-1074)
    let (left, right) := scale 2 numerator denominator (-exponent)
    min ((exponent + 1074).toNat * 0x10000000000000 + roundHalfEven left right) infinityBits

def nearestFloat (negative : Bool) (numerator denominator : Nat) : Float :=
  let magnitude := nearestBits numerator denominator
  .ofBits (.ofNat (if negative then magnitude + 0x8000000000000000 else magnitude))

example : nearestBits 1 10 = 0x3fb999999999999a := by decide

end GrowthGrammar.Number
