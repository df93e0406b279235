/-!
# Blank characters

The characters that separate words, and cutting them off the ends of a text.
-/

namespace GrowthGrammar.Text

/-- The characters with the Unicode property `White_Space`. -/
def isWhiteSpace (c : Char) : Bool :=
  let code := c.toNat
  (9 ≤ code && code ≤ 13) || code == 0x20 || code == 0x85 || code == 0xa0 || code == 0x1680 ||
    (0x2000 ≤ code && code ≤ 0x200a) || code == 0x2028 || code == 0x2029 || code == 0x202f ||
    code == 0x205f || code == 0x3000

/-- White space, and the four information separators. -/
def isBlank (c : Char) : Bool :=
  isWhiteSpace c || (0x1c ≤ c.toNat && c.toNat ≤ 0x1f)

/-! Trimming works on lists of characters; the versions on strings wrap it. -/

def trimStart (text : List Char) : List Char :=
  text.dropWhile isBlank

def trimEnd (text : List Char) : List Char :=
  (text.reverse.dropWhile isBlank).reverse

def trim (text : List Char) : List Char :=
  trimEnd (trimStart text)

/-- White space cut off both ends, with the separators kept. -/
def trimWhiteSpace (text : List Char) : List Char :=
  ((text.dropWhile isWhiteSpace).reverse.dropWhile isWhiteSpace).reverse

def isAllBlank (text : List Char) : Bool :=
  text.all isBlank

example : trim " \t a b\n".toList = "a b".toList := by decide

example : trimWhiteSpace [' ', '\x1c', 'a'] = ['\x1c', 'a'] := by decide

end GrowthGrammar.Text
