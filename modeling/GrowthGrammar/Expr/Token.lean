import GrowthGrammar.Text.Digit

/-!
# Tokens of expressions

How the text of an expression splits into literals, words and marks.
-/

namespace GrowthGrammar

inductive Token
  | number (literal : List Char)
  | hexadecimal (literal : List Char)
  | word (word : List Char)
  | plus
  | minus
  | times
  | divide
  | openParen
  | closeParen
  deriving DecidableEq, Repr

namespace Token

open Text (isDigit isHexDigit)

/-- Only these five characters may stand between tokens. -/
def isSpace (c : Char) : Bool :=
  c = ' ' || c = '\t' || c = '\n' || c = '\r' || c = '\x0c'

def startsWord (c : Char) : Bool :=
  ('a'.toNat ≤ c.toNat && c.toNat ≤ 'z'.toNat) || ('A'.toNat ≤ c.toNat && c.toNat ≤ 'Z'.toNat) ||
    c = '_'

def continuesWord (c : Char) : Bool :=
  startsWord c || isDigit c

/-- A word that can name a parameter; `Token.reserved` words cannot. -/
def isWord : List Char → Bool
  | [] => false
  | c :: rest => startsWord c && rest.all continuesWord

def reserved : List (List Char) :=
  [['t', 'r', 'u', 'e'], ['f', 'a', 'l', 's', 'e'], ['r', 'a', 'n', 'd', 'o', 'm']]

/-! Each of the following splits a text into the longest part of its kind and the rest. -/

def spanDigits (text : List Char) : List Char × List Char :=
  (text.takeWhile isDigit, text.dropWhile isDigit)

/-- An exponent is a mark, perhaps a sign, and at least one digit; otherwise there is none. -/
def spanExponent (text : List Char) : List Char × List Char :=
  match text with
  | mark :: rest =>
      if mark = 'e' || mark = 'E' then
        let (sign, rest) :=
          match rest with
          | '+' :: rest => (['+'], rest)
          | '-' :: rest => (['-'], rest)
          | rest => ([], rest)
        let (digits, rest) := spanDigits rest
        if digits.isEmpty then ([], text) else (mark :: sign ++ digits, rest)
      else ([], text)
  | [] => ([], text)

/-- Digits, or digits with a point before, between or behind them, and perhaps an exponent. -/
def spanNumber? (text : List Char) : Option (List Char × List Char) :=
  let (whole, rest) := spanDigits text
  match rest with
  | '.' :: rest =>
      let (fraction, rest) := spanDigits rest
      let (exponent, rest) := spanExponent rest
      if whole.isEmpty && fraction.isEmpty then none
      else some (whole ++ '.' :: fraction ++ exponent, rest)
  | rest =>
      let (exponent, rest) := spanExponent rest
      if whole.isEmpty then none else some (whole ++ exponent, rest)

def spanHexadecimal? (text : List Char) : Option (List Char × List Char) :=
  match text with
  | '0' :: mark :: rest =>
      let digits := rest.takeWhile isHexDigit
      if (mark = 'x' || mark = 'X') && !digits.isEmpty then
        some ('0' :: mark :: digits, rest.dropWhile isHexDigit)
      else none
  | _ => none

def mark? : Char → Option Token
  | '+' => some plus
  | '-' => some minus
  | '*' => some times
  | '/' => some divide
  | '(' => some openParen
  | ')' => some closeParen
  | _ => none

/-- The token at the start of a text. A hexadecimal literal goes before a number. -/
def next? (text : List Char) : Option (Token × List Char) :=
  match text with
  | [] => none
  | c :: rest =>
      match mark? c with
      | some token => some (token, rest)
      | none =>
          if startsWord c then
            some (word (c :: rest.takeWhile continuesWord), rest.dropWhile continuesWord)
          else
            match spanHexadecimal? text with
            | some (literal, rest) => some (hexadecimal literal, rest)
            | none => (spanNumber? text).map fun (literal, rest) => (number literal, rest)

/-- All tokens of a text whose length is at most the given number. -/
def listWithin (length : Nat) (text : List Char) : Option (List Token) :=
  match length, text.dropWhile isSpace with
  | _, [] => some []
  | 0, _ => none
  | length + 1, text => do
      let (token, rest) ← next? text
      return token :: (← listWithin length rest)

def list? (text : List Char) : Option (List Token) :=
  listWithin text.length text

example : list? "2*.5e1".toList =
    some [number ['2'], times, number ['.', '5', 'e', '1']] := by decide

example : list? "0x1f+e".toList =
    some [hexadecimal ['0', 'x', '1', 'f'], plus, word ['e']] := by decide

end Token

end GrowthGrammar
