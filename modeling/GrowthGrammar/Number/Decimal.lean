import GrowthGrammar.Number.Binary64
import GrowthGrammar.Text.Digit

/-!
# Decimal numbers and doubles

Reading a decimal as the nearest double, and the shortest decimal that reads back as a double.
-/

namespace GrowthGrammar.Number

/-- The number `digits * 10 ^ exponent`. -/
structure Decimal where
  digits : Nat
  exponent : Int
  deriving DecidableEq, Repr

namespace Decimal

/-- The bits of the nearest double. Powers of ten beyond the range of doubles are not computed:
what has an exponent of 310 or more is infinite unless it is zero, and what is below `2 ^ -1080`
is zero. -/
def nearestBits (decimal : Decimal) : Nat :=
  if decimal.digits = 0 then 0
  else if 310 ≤ decimal.exponent then infinityBits
  else if (decimal.digits.log2 : Int) + 1081 ≤ -3 * decimal.exponent then 0
  else
    let (numerator, denominator) := scale 10 decimal.digits 1 decimal.exponent
    Number.nearestBits numerator denominator

def toFloat (decimal : Decimal) : Float :=
  .ofBits (.ofNat decimal.nearestBits)

/-! An unsigned literal: digits, perhaps a point and more digits, perhaps an exponent. -/

/-- An exponent: its mark, perhaps a sign, and digits. -/
def exponentOfLiteral : List Char → Int
  | _ :: '-' :: digits => -(Text.decimalValue digits : Int)
  | _ :: '+' :: digits => Text.decimalValue digits
  | _ :: digits => Text.decimalValue digits
  | [] => 0

def ofLiteral (literal : List Char) : Decimal :=
  let whole := literal.takeWhile Text.isDigit
  let rest := literal.dropWhile Text.isDigit
  let (fraction, rest) :=
    match rest with
    | '.' :: rest => (rest.takeWhile Text.isDigit, rest.dropWhile Text.isDigit)
    | rest => ([], rest)
  { digits := Text.decimalValue (whole ++ fraction)
    exponent := exponentOfLiteral rest - fraction.length }

example : ofLiteral "01.50e-3".toList = { digits := 150, exponent := -5 } := by decide

/-! The shortest decimal of a double. For each number of digits, the double lies between two
neighbouring decimals with that many digits; the first number for which one of the two reads back
decides. -/

/-- The least `k` such that the quotient is below `10 ^ k`. -/
def pointPlace (numerator denominator : Nat) : Int :=
  if denominator ≤ numerator then (Text.decimalDigits (numerator / denominator)).length
  else 1 - ((Text.decimalDigits ((denominator - 1) / numerator)).length : Int)

/-- Of the two neighbours of a quotient among the multiples of `10 ^ exponent`, the nearest that
reads back as the double with the given bits; of two equally near the even one. -/
def neighbour? (bits : Nat) (numerator denominator : Nat) (exponent : Int) : Option Decimal :=
  let (left, right) := scale 10 numerator denominator (-exponent)
  let below : Decimal := { digits := left / right, exponent }
  let above : Decimal := { digits := left / right + 1, exponent }
  match decide (below.nearestBits = bits), decide (above.nearestBits = bits) with
  | true, true => some { digits := roundHalfEven left right, exponent }
  | true, false => some below
  | false, true => some above
  | false, false => none

/-- All digits of `mantissa * 2 ^ exponent`. -/
def exact (mantissa : Nat) (exponent : Int) : Decimal :=
  if 0 ≤ exponent then { digits := mantissa * Nat.pow 2 exponent.toNat, exponent := 0 }
  else { digits := mantissa * Nat.pow 5 (-exponent).toNat, exponent }

/-- The shortest decimal that reads back as `mantissa * 2 ^ exponent`, which is the double above
zero with the given bits. -/
def shortest (bits : Nat) (mantissa : Nat) (exponent : Int) : Decimal :=
  let (numerator, denominator) := scale 2 mantissa 1 exponent
  let place := pointPlace numerator denominator
  ((List.range 17).findSome? fun (count : Nat) =>
    neighbour? bits numerator denominator (place - (count + 1))).getD (exact mantissa exponent)

/-- The digits without zeros at the end, and the place of the point behind the first of them. -/
def significant (decimal : Decimal) : List Char × Int :=
  let digits := Text.decimalDigits decimal.digits
  ((digits.reverse.dropWhile (· == '0')).reverse, digits.length + decimal.exponent)

end Decimal

/-! The text of a double. -/

def ofUnsignedText (text : List Char) : Float :=
  if text = ['i', 'n', 'f'] then 1 / 0
  else if text = ['n', 'a', 'n'] then 0 / 0
  else (Decimal.ofLiteral text).toFloat

/-- The double that a literal with an optional sign is nearest to. -/
def ofText (text : String) : Float :=
  match text.toList with
  | '-' :: rest => -(ofUnsignedText rest)
  | '+' :: rest => ofUnsignedText rest
  | rest => ofUnsignedText rest

end GrowthGrammar.Number
