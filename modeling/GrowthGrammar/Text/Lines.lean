import GrowthGrammar.Text.Blank

/-!
# Lines of a text

Where a text breaks into lines, and joining lines again.
-/

namespace GrowthGrammar.Text

/-- A character that ends a line. A carriage return followed by a line feed is one end. -/
def endsLine (c : Char) : Bool :=
  let code := c.toNat
  (10 ≤ code && code ≤ 13) || (0x1c ≤ code && code ≤ 0x1e) || code == 0x85 ||
    code == 0x2028 || code == 0x2029

/-- The lines of a text, without their ends. A text that ends with a line end has no empty last
line. -/
def lines : List Char → List (List Char)
  | [] => []
  | '\r' :: '\n' :: rest => [] :: lines rest
  | c :: rest =>
      if endsLine c then [] :: lines rest
      else
        match lines rest with
        | [] => [[c]]
        | first :: others => (c :: first) :: others

example : lines "a\r\nb\n\nc".toList = ["a".toList, "b".toList, [], "c".toList] := by decide

example : lines "a\n".toList = ["a".toList] := by decide

/-- Files are read with every line end made of carriage returns written as one line feed. -/
def unifyLineEnds : List Char → List Char
  | [] => []
  | '\r' :: '\n' :: rest => '\n' :: unifyLineEnds rest
  | c :: rest => (if c = '\r' then '\n' else c) :: unifyLineEnds rest

end GrowthGrammar.Text
