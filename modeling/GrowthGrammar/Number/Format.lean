import GrowthGrammar.Number.Decimal

/-!
# Numbers as text

The shortest text that reads back as a double, the text of symbol parameters, and fixed-point text.
-/

namespace GrowthGrammar.Number

open Text (decimalDigits padZeros)

def signed (negative : Bool) (text : List Char) : List Char :=
  if negative then '-' :: text else text

def specialText : Binary64 → List Char
  | .nan => ['n', 'a', 'n']
  | .infinite negative => signed negative ['i', 'n', 'f']
  | .finite .. => []

/-- An exponent has a sign and at least two digits. -/
def exponentText (exponent : Int) : List Char :=
  'e' :: (if exponent < 0 then '-' else '+') :: padZeros 2 (decimalDigits exponent.natAbs)

/-- Significant digits with the point behind the first `place` of them. The text is positional when
the exponent is at least -4 and below 16, and then always has a digit after the point. -/
def placePoint (digits : List Char) (place : Int) : List Char :=
  if -4 < place && place ≤ 16 then
    if place ≤ 0 then '0' :: '.' :: List.replicate (-place).toNat '0' ++ digits
    else
      let whole := digits.take place.toNat
      let fraction := digits.drop place.toNat
      whole ++ List.replicate (place.toNat - digits.length) '0' ++
        '.' :: (if fraction.isEmpty then ['0'] else fraction)
  else
    let fraction := digits.drop 1
    digits.take 1 ++ (if fraction.isEmpty then [] else '.' :: fraction) ++ exponentText (place - 1)

def shortestChars (x : Float) : List Char :=
  match Binary64.ofFloat x with
  | .finite negative mantissa exponent =>
      if mantissa = 0 then signed negative ['0', '.', '0']
      else
        let (digits, place) :=
          (Decimal.shortest (x.toBits.toNat % 0x8000000000000000) mantissa exponent).significant
        signed negative (placePoint digits place)
  | special => specialText special

/-- The shortest text that reads back as the double. -/
def shortest (x : Float) : String :=
  .ofList (shortestChars x)

def intChars (n : Int) : List Char :=
  signed (n < 0) (decimalDigits n.natAbs)

/-- The text of a symbol's parameter: integers below `10 ^ 15` are written without a point, and
everything else as the shortest text that reads back. -/
def parameterChars (x : Float) : List Char :=
  match integerOf? x with
  | some n => if n.natAbs < 1000000000000000 then intChars n else shortestChars x
  | none => shortestChars x

def parameterText (x : Float) : String :=
  .ofList (parameterChars x)

/-- Digits with a point in front of the last `places`. -/
def insertPoint (places : Nat) (digits : List Char) : List Char :=
  let padded := padZeros (places + 1) digits
  let whole := padded.take (padded.length - places)
  if places = 0 then whole else whole ++ '.' :: padded.drop (padded.length - places)

/-- The double rounded to a number of decimal places, with a sign also when it rounds to zero. -/
def fixedChars (places : Nat) (x : Float) : List Char :=
  match Binary64.ofFloat x with
  | .finite negative mantissa exponent =>
      let (numerator, denominator) := scale 2 mantissa 1 exponent
      let rounded := roundHalfEven (numerator * Nat.pow 10 places) denominator
      signed negative (insertPoint places (decimalDigits rounded))
  | special => specialText special

def fixed (places : Nat) (x : Float) : String :=
  .ofList (fixedChars places x)

/-- One digit in front of the point and `places` of them behind it, for a double other than zero. -/
def scientificChars (places : Nat) (x : Float) : List Char :=
  match Binary64.ofFloat x with
  | .finite negative mantissa exponent =>
      let (numerator, denominator) := scale 2 mantissa 1 exponent
      let place := Decimal.pointPlace numerator denominator
      let (above, below) := scale 10 numerator denominator (places + 1 - place)
      let rounded := roundHalfEven above below
      let (digits, place) :=
        if rounded = Nat.pow 10 (places + 1) then (Nat.pow 10 places, place + 1)
        else (rounded, place)
      signed negative (insertPoint places (decimalDigits digits) ++ exponentText (place - 1))
  | special => specialText special

def scientific (places : Nat) (x : Float) : String :=
  .ofList (scientificChars places x)

end GrowthGrammar.Number
