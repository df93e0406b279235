import GrowthGrammar.Number.Binary64
import GrowthGrammar.Text.Blank
import GrowthGrammar.Text.Digit

/-!
# Reading integers

Integers as they are typed on a command line: in digits of any script, with a sign, white space
around them, and single underscores between the digits.
-/

namespace GrowthGrammar.Number

/-- Integers with more digits are not read. -/
def maxDigits : Nat := 4300

/-- The values of digits that may have underscores between them. -/
def digitGroups? : List Char → Option (List Nat)
  | [] => none
  | [c] => (Text.digitValue? c).map fun digit => [digit]
  | c :: '_' :: rest => do
      return (← Text.digitValue? c) :: (← digitGroups? rest)
  | c :: rest => do
      return (← Text.digitValue? c) :: (← digitGroups? rest)

def readUnsigned? (text : List Char) : Option Nat := do
  let digits ← digitGroups? text
  if digits.length ≤ maxDigits then return Text.digitsValue 10 digits else none

def readInteger? (text : List Char) : Option Int :=
  match Text.trimWhiteSpace text with
  | '-' :: rest => (readUnsigned? rest).map (withSign true)
  | '+' :: rest => (readUnsigned? rest).map (withSign false)
  | rest => (readUnsigned? rest).map (withSign false)

example : readInteger? " -1_0 ".toList = some (-10) := by decide

example : readInteger? "1__0".toList = none ∧ readInteger? "0x2".toList = none := by decide

end GrowthGrammar.Number
