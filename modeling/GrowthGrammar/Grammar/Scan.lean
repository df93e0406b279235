import GrowthGrammar.Error
import GrowthGrammar.Text.Blank

/-!
# Scanning symbols

A sequence of symbols is cut into names and the raw texts of their parameters.
-/

namespace GrowthGrammar

structure RawSymbol where
  name : String
  parameters : List String
  deriving DecidableEq, Repr

namespace RawSymbol

open Text (isBlank)

def isNameChar (c : Char) : Bool :=
  !isBlank c && c != '{' && c != '}' && c != ','

/-- How deep the text behind a character is nested in parentheses. -/
def depthAfter (depth : Int) (c : Char) : Int :=
  if c = '(' then depth + 1 else if c = ')' then depth - 1 else depth

/-- The parts of a text between the commas that stand outside of parentheses. -/
def splitAtCommas (depth : Int) : List Char → List (List Char)
  | [] => [[]]
  | c :: rest =>
      if c = ',' ∧ depth = 0 then [] :: splitAtCommas depth rest
      else
        match splitAtCommas (depthAfter depth c) rest with
        | [] => [[c]]
        | part :: parts => (c :: part) :: parts

/-- The parameters between two braces. A blank list has none, and no other may have a blank one. -/
def splitParameters (body : List Char) : Except ParseError.Cause (List String) :=
  if Text.isAllBlank body then .ok []
  else
    let parts := (splitAtCommas 0 body).map Text.trim
    if parts.any List.isEmpty then .error .emptyParameter
    else .ok (parts.map String.ofList)

theorem length_dropWhile_le (keep : Char → Bool) (text : List Char) :
    (text.dropWhile keep).length ≤ text.length :=
  (List.dropWhile_sublist keep).length_le

def scan (text : List Char) : Except ParseError.Cause (List RawSymbol) :=
  match text with
  | [] => .ok []
  | c :: rest =>
      if isBlank c then scan rest
      else if c = '{' then .error .missingSymbolName
      else if c = '}' then .error .unbalancedClose
      else if c = ',' then .error .unexpectedComma
      else
        let name := String.ofList (c :: rest.takeWhile isNameChar)
        match _behindName : rest.dropWhile isNameChar with
        | '{' :: inside =>
            match _behindBody : inside.dropWhile (· != '}') with
            | [] => .error .unbalancedOpen
            | _ :: behind => do
                let body := inside.takeWhile (· != '}')
                if body.contains '{' then throw .nestedOpen
                let parameters ← splitParameters body
                return { name, parameters } :: (← scan behind)
        | behind => do
            return { name, parameters := [] } :: (← scan behind)
termination_by text.length
decreasing_by
  · exact Nat.lt_succ_self _
  · have nameBound := length_dropWhile_le isNameChar rest
    have bodyBound := length_dropWhile_le (· != '}') inside
    rw [_behindName, List.length_cons] at nameBound
    rw [_behindBody, List.length_cons] at bodyBound
    rw [List.length_cons]
    omega
  · have nameBound := length_dropWhile_le isNameChar rest
    rw [_behindName] at nameBound
    exact Nat.lt_succ_of_le nameBound

/-- Scan a part of a text; errors show the text as a whole. -/
def scanWithin (location : Location) (text : List Char) : Except ParseError (List RawSymbol) :=
  (scan text).mapError fun cause => { cause, location }

end RawSymbol

end GrowthGrammar
