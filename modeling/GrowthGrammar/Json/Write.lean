import GrowthGrammar.Json.Basic
import GrowthGrammar.Number.Format

/-!
# Writing JSON

Values are written with one member or item to a line, indented by two blanks for each level.
Characters beyond ASCII are written as they are.
-/

namespace GrowthGrammar

namespace Json

def escapeChar (c : Char) : List Char :=
  if c = '"' then ['\\', '"']
  else if c = '\\' then ['\\', '\\']
  else if c = '\n' then ['\\', 'n']
  else if c = '\r' then ['\\', 'r']
  else if c = '\t' then ['\\', 't']
  else if c = '\x0c' then ['\\', 'f']
  else if c = '\x08' then ['\\', 'b']
  else if c.toNat < 0x20 then '\\' :: 'u' :: Text.hexadecimalDigits 4 c.toNat
  else [c]

def stringText (value : String) : String :=
  .ofList ('"' :: value.toList.flatMap escapeChar ++ ['"'])

def floatText (value : Float) : String :=
  match Number.Binary64.ofFloat value with
  | .nan => "NaN"
  | .infinite false => "Infinity"
  | .infinite true => "-Infinity"
  | .finite .. => Number.shortest value

def lineBreak (level : Nat) : String :=
  .ofList ('\n' :: List.replicate (2 * level) ' ')

/-! A text is written in pieces. Keys and brackets are pieces of their own, and so are most values;
what stands in front of an item of an array goes with it. -/

mutual

def piecesAt (level : Nat) (start : String) : Json → List String
  | null => [start ++ "null"]
  | bool value => [start ++ if value then "true" else "false"]
  | int value => [start ++ .ofList (Number.intChars value)]
  | float value => [start ++ floatText value]
  | string value => [start ++ stringText value]
  | array [] => [start, "[]"]
  | array (item :: items) =>
      start :: piecesAt (level + 1) ("[" ++ lineBreak (level + 1)) item ++
        itemPieces (level + 1) items ++ [lineBreak level ++ "]"]
  | object [] => [start, "\x7b\x7d"]
  | object ((key, value) :: members) =>
      [start, "\x7b" ++ lineBreak (level + 1), stringText key, ": "] ++
        piecesAt (level + 1) "" value ++ memberPieces (level + 1) members ++
        [lineBreak level ++ "\x7d"]

def itemPieces (level : Nat) : List Json → List String
  | [] => []
  | item :: items => piecesAt level ("," ++ lineBreak level) item ++ itemPieces level items

def memberPieces (level : Nat) : List (String × Json) → List String
  | [] => []
  | (key, value) :: members =>
      ["," ++ lineBreak level, stringText key, ": "] ++ piecesAt level "" value ++
        memberPieces level members

end

/-- The text of a file that holds a value ends with a line feed. -/
def filePieces (value : Json) : List String :=
  piecesAt 0 "" value ++ ["\n"]

def fileText (value : Json) : String :=
  .join (filePieces value)

end Json

end GrowthGrammar
