import GrowthGrammar.Text.Digit
import GrowthGrammar.Text.Printable
import GrowthGrammar.Text.Surrogate

/-!
# Quoted text

How messages show a text: between quotes, with everything that cannot be printed escaped. Single
quotes are used unless the text has a single quote and no double quote.
-/

namespace GrowthGrammar.Text

def quoteMark (text : List Char) : Char :=
  if text.contains '\'' && !text.contains '"' then '"' else '\''

def escapeChar (mark c : Char) : List Char :=
  if c = mark || c = '\\' then ['\\', c]
  else if c = '\n' then ['\\', 'n']
  else if c = '\r' then ['\\', 'r']
  else if c = '\t' then ['\\', 't']
  else if isPrintable c then [c]
  else if c.toNat < 0x100 then '\\' :: 'x' :: hexadecimalDigits 2 c.toNat
  else if c.toNat < 0x10000 then '\\' :: 'u' :: hexadecimalDigits 4 c.toNat
  else '\\' :: 'U' :: hexadecimalDigits 8 c.toNat

def escapeItem (mark : Char) : Item → List Char
  | .char c => escapeChar mark c
  | .surrogate code _ => '\\' :: 'u' :: hexadecimalDigits 4 code

def quoteChars (text : List Char) : List Char :=
  let mark := quoteMark text
  mark :: (items text).flatMap (escapeItem mark) ++ [mark]

def quote (text : String) : String :=
  String.ofList (quoteChars text.toList)

example : quoteChars "it's".toList = "\"it's\"".toList := by decide

example : quoteChars ['a', '\n', '\u00a0'] = "'a\\n\\xa0'".toList := by decide

end GrowthGrammar.Text
