/-!
# Unpaired surrogates

A text may hold surrogates that are not part of a pair. No character has such a code, so characters
for private use from the last plane keep their places. Where one of these stands for itself, it is
spelled with a mark in front of it, and so is the mark.
-/

namespace GrowthGrammar.Text

def isHighSurrogate (code : Nat) : Bool :=
  0xd800 ≤ code && code < 0xdc00

def isLowSurrogate (code : Nat) : Bool :=
  0xdc00 ≤ code && code < 0xe000

def isSurrogate (code : Nat) : Bool :=
  isHighSurrogate code || isLowSurrogate code

/-- The code that two surrogates are a pair for. -/
def pairCode (high low : Nat) : Nat :=
  0x10000 + (high - 0xd800) * 0x400 + (low - 0xdc00)

/-- How far the characters that keep the places of surrogates are from them. -/
def surrogateShift : Nat := 0x100000

/-- The surrogate that a character keeps the place of. -/
def surrogate? (c : Char) : Option Nat :=
  let code := c.toNat - surrogateShift
  if isSurrogate code then some code else none

/-- What stands in front of a character that would be taken for something else. -/
def spellMark : Char := Char.ofNat 0x10ffff

def needsMark (c : Char) : Bool :=
  c = spellMark || (surrogate? c).isSome

/-- What a text is made of. -/
inductive Item
  | char (c : Char)
  | surrogate (code : Nat) (unpaired : isSurrogate code)
  deriving DecidableEq, Repr

namespace Item

def ofCode (code : Nat) : Item :=
  if unpaired : isSurrogate code then .surrogate code unpaired else .char (Char.ofNat code)

/-- What a character without a mark in front of it stands for. -/
def ofChar (c : Char) : Item :=
  if unpaired : isSurrogate (c.toNat - surrogateShift) then .surrogate _ unpaired else .char c

def spell : Item → List Char
  | char c => if needsMark c then [spellMark, c] else [c]
  | surrogate code _ => [Char.ofNat (code + surrogateShift)]

def char? : Item → Option Char
  | char c => some c
  | surrogate .. => none

end Item

/-- The items that a text spells. A mark at its end stands for itself. -/
def items : List Char → List Item
  | [] => []
  | [c] => [.ofChar c]
  | c :: next :: rest =>
      if c = spellMark then .char next :: items rest else .ofChar c :: items (next :: rest)

/-- The text that spells the given items. -/
def ofItems (items : List Item) : String :=
  .ofList (items.flatMap Item.spell)

/-- The text in which each of the given characters stands for itself. -/
def spelled (text : String) : String :=
  ofItems (text.toList.map .char)

/-- The characters of a text, without its surrogates. -/
def plain (text : String) : String :=
  .ofList ((items text.toList).filterMap Item.char?)

/-- The bytes of a text in which no surrogate is unpaired. -/
def encode (text : String) : ByteArray :=
  (plain text).toUTF8

example : (items ['a', Char.ofNat 0x10d800, spellMark, Char.ofNat 0x10d800]).map Item.char? =
    [some 'a', none, some (Char.ofNat 0x10d800)] := by
  decide

end GrowthGrammar.Text
