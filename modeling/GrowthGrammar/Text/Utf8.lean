import GrowthGrammar.Text.Digit
import GrowthGrammar.Text.Surrogate

/-!
# UTF-8

Decoding bytes to characters, and the reason and place of the first failure. Encoding can fail as
well, since surrogates have no bytes.
-/

namespace GrowthGrammar.Text

inductive Utf8Fault
  | invalidStart
  | invalidContinuation
  | unexpectedEnd
  deriving DecidableEq, Repr

/-- A failure to decode: what is wrong, the first offending byte, its position, and how many bytes
from there on are no character. -/
structure Utf8Error where
  fault : Utf8Fault
  byte : UInt8
  position : Nat
  length : Nat
  deriving DecidableEq, Repr

def Utf8Fault.text : Utf8Fault → String
  | invalidStart => "invalid start byte"
  | invalidContinuation => "invalid continuation byte"
  | unexpectedEnd => "unexpected end of data"

/-- Several offending bytes are told by their positions, a single one also by its value. -/
def Utf8Error.message (error : Utf8Error) : String :=
  let place :=
    if error.length = 1 then
      "byte 0x" ++ .ofList (hexadecimalDigits 2 error.byte.toNat) ++ " in position " ++
        toString error.position
    else
      "bytes in position " ++ toString error.position ++ "-" ++
        toString (error.position + error.length - 1)
  "'utf-8' codec can't decode " ++ place ++ ": " ++ error.fault.text

/-- One step of decoding: a character and the number of its bytes, or a fault and the number of
bytes it spans. -/
inductive Utf8Step
  | char (c : Char) (length : Nat)
  | fault (fault : Utf8Fault) (length : Nat)

def isContinuation (byte : UInt8) : Bool :=
  0x80 ≤ byte && byte ≤ 0xbf

/-- The range of the second byte of a character, which depends on the first: no character has a
longer form than it needs, none is a surrogate, and none lies beyond the last code point. -/
def isSecondByte (first second : UInt8) : Bool :=
  (if first = 0xe0 then 0xa0 else if first = 0xf0 then 0x90 else 0x80) ≤ second &&
    second ≤ (if first = 0xed then 0x9f else if first = 0xf4 then 0x8f else 0xbf)

private def payload (byte : UInt8) : Nat :=
  (byte &&& 0x3f).toNat

/-- Decode one character from the bytes that follow its first byte. -/
def utf8Step (first : UInt8) (rest : List UInt8) : Utf8Step :=
  if first < 0x80 then .char (Char.ofNat first.toNat) 1
  else if first < 0xc2 || 0xf4 < first then .fault .invalidStart 1
  else
    match rest with
    | [] => .fault .unexpectedEnd 1
    | second :: rest =>
        if !isSecondByte first second then .fault .invalidContinuation 1
        else if first < 0xe0 then
          .char (Char.ofNat ((first &&& 0x1f).toNat * 0x40 + payload second)) 2
        else
          match rest with
          | [] => .fault .unexpectedEnd 2
          | third :: rest =>
              if !isContinuation third then .fault .invalidContinuation 2
              else if first < 0xf0 then
                .char (Char.ofNat (((first &&& 0xf).toNat * 0x40 + payload second) * 0x40 +
                  payload third)) 3
              else
                match rest with
                | [] => .fault .unexpectedEnd 3
                | fourth :: _ =>
                    if !isContinuation fourth then .fault .invalidContinuation 3
                    else
                      .char (Char.ofNat ((((first &&& 7).toNat * 0x40 + payload second) * 0x40 +
                        payload third) * 0x40 + payload fourth)) 4

/-- Decode from a position on, behind characters already read (last one first). -/
private def decodeFrom (position : Nat) (read : List Char) (bytes : List UInt8) :
    Except Utf8Error (List Char) :=
  match bytes with
  | [] => .ok read.reverse
  | first :: rest =>
      match utf8Step first rest with
      | .char c length =>
          decodeFrom (position + length) (c :: read) (rest.drop (length - 1))
      | .fault fault length => .error { fault, byte := first, position, length }
termination_by bytes.length
decreasing_by
  rw [List.length_drop, List.length_cons]
  omega

def decodeUtf8 (bytes : List UInt8) : Except Utf8Error (List Char) :=
  decodeFrom 0 [] bytes

/-! Encoding. -/

/-- A failure to encode: the first surrogate, its position, and how many stand in a row there. -/
structure UnpairedError where
  code : Nat
  position : Nat
  length : Nat
  deriving DecidableEq, Repr

def UnpairedError.message (error : UnpairedError) : String :=
  let place :=
    if error.length = 1 then
      "character '\\u" ++ .ofList (hexadecimalDigits 4 error.code) ++ "' in position " ++
        toString error.position
    else
      "characters in position " ++ toString error.position ++ "-" ++
        toString (error.position + error.length - 1)
  "'utf-8' codec can't encode " ++ place ++ ": surrogates not allowed"

/-- The first surrogate from a position on that has no bytes, and the surrogates right behind it. -/
def unpairedFrom? (hasBytes : Nat → Bool) (position : Nat) : List Item → Option UnpairedError
  | [] => none
  | .char _ :: rest => unpairedFrom? hasBytes (position + 1) rest
  | .surrogate code _ :: rest =>
      if hasBytes code then unpairedFrom? hasBytes (position + 1) rest
      else
        let others := rest.takeWhile fun item => item.char?.isNone
        some { code, position, length := others.length + 1 }

def unpaired? (text : String) : Option UnpairedError :=
  unpairedFrom? (fun _ => false) 0 (items text.toList)

end GrowthGrammar.Text
