import GrowthGrammar.Json.Basic
import GrowthGrammar.Number.Decimal
import GrowthGrammar.Number.Integer
import GrowthGrammar.Text.Surrogate

/-!
# Reading JSON

The text of a value, and what is wrong with a text that is none, told with line and column.
-/

namespace GrowthGrammar

namespace Json

inductive Fault
  | expectingValue
  | expectingName
  | expectingColon
  | expectingComma
  | unterminatedString
  | controlCharacter
  | invalidEscape
  | invalidCodeEscape
  | byteOrderMark
  | extraData
  | integerTooLong (digits : Nat)
  | arrayTooDeep
  | objectTooDeep
  deriving DecidableEq, Repr

/-- Faults that lie in the limits of the reader, and not in the text. -/
def Fault.isLimit : Fault → Bool
  | integerTooLong _ | arrayTooDeep | objectTooDeep => true
  | _ => false

def tooDeep (kind : String) : String :=
  "maximum recursion depth exceeded while decoding a JSON " ++ kind ++ " from a unicode string"

def Fault.text : Fault → String
  | expectingValue => "Expecting value"
  | expectingName => "Expecting property name enclosed in double quotes"
  | expectingColon => "Expecting ':' delimiter"
  | expectingComma => "Expecting ',' delimiter"
  | unterminatedString => "Unterminated string starting at"
  | controlCharacter => "Invalid control character at"
  | invalidEscape => "Invalid \\escape"
  | invalidCodeEscape => "Invalid \\uXXXX escape"
  | byteOrderMark => "Unexpected UTF-8 BOM (decode using utf-8-sig)"
  | extraData => "Extra data"
  | integerTooLong digits =>
      "Exceeds the limit (" ++ toString Number.maxDigits ++
        " digits) for integer string conversion: value has " ++ toString digits ++
        " digits; use sys.set_int_max_str_digits() to increase the limit"
  | arrayTooDeep => tooDeep "array"
  | objectTooDeep => tooDeep "object"

/-- A fault, and how many characters of the text are left where it is. -/
structure FaultAt where
  fault : Fault
  left : Nat
  deriving DecidableEq, Repr

def failAt (fault : Fault) (text : List Char) : Except FaultAt α :=
  .error { fault, left := text.length }

def isSpace (c : Char) : Bool :=
  c = ' ' || c = '\t' || c = '\n' || c = '\r'

def skipSpace (text : List Char) : List Char :=
  text.dropWhile isSpace

/-! Strings. -/

def simpleEscape? : Char → Option Char
  | '"' => some '"'
  | '\\' => some '\\'
  | '/' => some '/'
  | 'b' => some '\x08'
  | 'f' => some '\x0c'
  | 'n' => some '\n'
  | 'r' => some '\r'
  | 't' => some '\t'
  | _ => none

def codeUnit? : List Char → Option Nat
  | [a, b, c, d] => do
      return Text.digitsValue 16
        [← Text.hexValue? a, ← Text.hexValue? b, ← Text.hexValue? c, ← Text.hexValue? d]
  | _ => none

/-- The character or surrogate escaped by the four digits behind `\u`, or by two such escapes in a
row that are a pair of surrogates. At least one character has to follow the digits. `text` starts
with the `u`. -/
def codeEscape (text : List Char) : Except FaultAt (Text.Item × List Char) :=
  let digits := (text.drop 1).take 4
  let rest := text.drop 5
  match codeUnit? digits with
  | none => failAt .invalidCodeEscape text
  | some code =>
      if rest.isEmpty then failAt .invalidCodeEscape text
      else
        match rest with
        | '\\' :: 'u' :: more =>
            if Text.isHighSurrogate code && 4 < more.length then
              match codeUnit? (more.take 4) with
              | none => failAt .invalidCodeEscape ('u' :: more)
              | some low =>
                  if Text.isLowSurrogate low then
                    .ok (.ofCode (Text.pairCode code low), more.drop 4)
                  else .ok (.ofCode code, rest)
            else .ok (.ofCode code, rest)
        | _ => .ok (.ofCode code, rest)

/-- Read the rest of a string, of which at most `length` characters are left, behind what has been
read of it (last item first). `opening` is the text from its opening quote on. -/
def readString (opening : List Char) (length : Nat) (read : List Text.Item) (text : List Char) :
    Except FaultAt (String × List Char) :=
  match length, text with
  | _, [] => failAt .unterminatedString opening
  | 0, _ => failAt .unterminatedString opening
  | length + 1, c :: rest =>
      if c = '"' then .ok (Text.ofItems read.reverse, rest)
      else if c = '\\' then
        match rest with
        | [] => failAt .unterminatedString opening
        | 'u' :: _ => do
            let (escaped, rest) ← codeEscape rest
            readString opening length (escaped :: read) rest
        | escape :: rest =>
            match simpleEscape? escape with
            | some escaped => readString opening length (.char escaped :: read) rest
            | none => failAt .invalidEscape text
      else if c.toNat < 0x20 then failAt .controlCharacter text
      else readString opening length (.char c :: read) rest

/-! Numbers. -/

/-- The text of a number in parts: the sign, the digits, the fraction with its point, the exponent
with its mark, and what follows. A part that is not complete belongs to what follows. -/
structure NumberParts where
  negative : Bool
  whole : List Char
  fraction : List Char
  exponent : List Char
  rest : List Char

def spanFraction (text : List Char) : List Char × List Char :=
  match text with
  | '.' :: rest =>
      let digits := rest.takeWhile Text.isDigit
      if digits.isEmpty then ([], text) else ('.' :: digits, rest.dropWhile Text.isDigit)
  | _ => ([], text)

def spanExponent (text : List Char) : List Char × List Char :=
  match text with
  | mark :: rest =>
      if mark = 'e' || mark = 'E' then
        let (sign, rest) :=
          match rest with
          | '+' :: rest => (['+'], rest)
          | '-' :: rest => (['-'], rest)
          | rest => ([], rest)
        let digits := rest.takeWhile Text.isDigit
        if digits.isEmpty then ([], text)
        else (mark :: sign ++ digits, rest.dropWhile Text.isDigit)
      else ([], text)
  | [] => ([], text)

/-- A number that does not start with zero may have several digits in front of the point. -/
def spanWhole (text : List Char) : List Char × List Char :=
  match text with
  | '0' :: rest => (['0'], rest)
  | _ => (text.takeWhile Text.isDigit, text.dropWhile Text.isDigit)

def numberParts (text : List Char) : NumberParts :=
  let (negative, unsigned) :=
    match text with
    | '-' :: rest => (true, rest)
    | text => (false, text)
  let (whole, rest) := spanWhole unsigned
  let (fraction, rest) := spanFraction rest
  let (exponent, rest) := spanExponent rest
  { negative, whole, fraction, exponent, rest }

/-- A number with neither fraction nor exponent is an integer. -/
def readNumber (text : List Char) : Except FaultAt (Json × List Char) :=
  let parts := numberParts text
  if parts.whole.isEmpty then failAt .expectingValue text
  else if parts.fraction.isEmpty && parts.exponent.isEmpty then
    if Number.maxDigits < parts.whole.length then
      failAt (.integerTooLong parts.whole.length) text
    else
      .ok (int (Number.withSign parts.negative (Text.decimalValue parts.whole)), parts.rest)
  else
    let literal := parts.whole ++ parts.fraction ++ parts.exponent
    let value := (Number.Decimal.ofLiteral literal).toFloat
    .ok (float (if parts.negative then -value else value), parts.rest)

/-- The words that are values; three of them are numbers that JSON proper does not have. -/
def words : List (List Char × Json) :=
  [("null".toList, null), ("true".toList, bool true), ("false".toList, bool false),
   ("NaN".toList, float (0 / 0)), ("Infinity".toList, float (1 / 0)),
   ("-Infinity".toList, float (-1 / 0))]

def readWord? (text : List Char) : Option (Json × List Char) :=
  words.findSome? fun (word, value) =>
    if word.isPrefixOf text then some (value, text.drop word.length) else none

/-! Values. The first argument bounds the number of steps; every second step reads a character. The
second one is the number of arrays and objects that a value may have around and in it. -/

mutual

def readValue (steps depth : Nat) (text : List Char) : Except FaultAt (Json × List Char) :=
  match steps, text with
  | 0, _ => failAt .expectingValue text
  | _, [] => failAt .expectingValue text
  | steps + 1, c :: rest =>
      if c = '"' then do
        let (value, rest) ← readString text rest.length [] rest
        return (string value, rest)
      else if c = '[' then
        if depth = 0 then failAt .arrayTooDeep text
        else
          match skipSpace rest with
          | ']' :: rest => .ok (array [], rest)
          | rest => do
              let (items, rest) ← readItems steps (depth - 1) rest
              return (array items, rest)
      else if c = '{' then
        if depth = 0 then failAt .objectTooDeep text
        else
          match skipSpace rest with
          | '}' :: rest => .ok (object [], rest)
          | rest => do
              let (members, rest) ← readMembers steps (depth - 1) rest
              return (ofMembers members, rest)
      else
        match readWord? text with
        | some result => .ok result
        | none => readNumber text

def readItems (steps depth : Nat) (text : List Char) : Except FaultAt (List Json × List Char) :=
  match steps with
  | 0 => failAt .expectingValue text
  | steps + 1 => do
      let (item, rest) ← readValue steps depth text
      match skipSpace rest with
      | ']' :: rest => return ([item], rest)
      | ',' :: rest =>
          let (items, rest) ← readItems steps depth (skipSpace rest)
          return (item :: items, rest)
      | rest => failAt .expectingComma rest

def readMembers (steps depth : Nat) (text : List Char) :
    Except FaultAt (List (String × Json) × List Char) :=
  match steps, text with
  | steps + 1, '"' :: rest => do
      let (key, rest) ← readString text rest.length [] rest
      match skipSpace rest with
      | ':' :: rest =>
          let (value, rest) ← readValue steps depth (skipSpace rest)
          match skipSpace rest with
          | '}' :: rest => return ([(key, value)], rest)
          | ',' :: rest =>
              let (members, rest) ← readMembers steps depth (skipSpace rest)
              return ((key, value) :: members, rest)
          | rest => failAt .expectingComma rest
      | rest => failAt .expectingColon rest
  | _, text => failAt .expectingName text

end

/-- Arrays and objects may lie in each other this deep. -/
def maxDepth : Nat := 990

def readAll (text : List Char) : Except FaultAt Json := do
  if text.head? = some '\ufeff' then failAt .byteOrderMark text
  let (value, rest) ← readValue (2 * text.length + 2) maxDepth (skipSpace text)
  match skipSpace rest with
  | [] => return value
  | rest => failAt .extraData rest

/-- A fault with its place in the text: line and column count from one, the position from zero. -/
structure ReadError where
  fault : Fault
  line : Nat
  column : Nat
  position : Nat
  deriving DecidableEq, Repr

def ReadError.message (error : ReadError) : String :=
  error.fault.text ++ ": line " ++ toString error.line ++ " column " ++ toString error.column ++
    " (char " ++ toString error.position ++ ")"

def locate (text : List Char) (fault : FaultAt) : ReadError :=
  let position := text.length - fault.left
  let before := text.take position
  { fault := fault.fault
    line := before.count '\n' + 1
    column := (before.reverse.takeWhile (· != '\n')).length + 1
    position }

def read (text : List Char) : Except ReadError Json :=
  (readAll text).mapError (locate text)

end Json

end GrowthGrammar
