import GrowthGrammar.CommandLine.Option
import GrowthGrammar.Text.Digit

/-!
# Words of a command line

What each word is within a scope: an option, perhaps with a value, or plain text. Long options may
be cut short as long as they stay distinct; a word behind `--` is always plain.
-/

namespace GrowthGrammar

namespace CommandLine

/-- What stands behind the name of an option in its own word. -/
inductive Tail
  | nothing
  | behindEquals (text : List Char)
  | behindFlag (text : List Char)
  deriving DecidableEq, Repr

def Tail.text? : Tail → Option (List Char)
  | nothing => none
  | behindEquals text | behindFlag text => some text

inductive Word
  | plain (text : String)
  | separator
  | option (switch : Switch) (name : String) (tail : Tail)
  | unknown (text : String)
  deriving DecidableEq, Repr

namespace Word

/-- The names that a scope knows, with their switches. -/
def known (scope : Scope) : List (String × Switch) :=
  scope.switches.flatMap fun switch => switch.names.map fun name => (name, switch)

def splitAtEquals? : List Char → Option (List Char × List Char)
  | [] => none
  | '=' :: rest => some ([], rest)
  | c :: rest => (splitAtEquals? rest).map fun (left, right) => (c :: left, right)

/-- Digits with an optional point among them and a minus in front; such words are no options. -/
def isNegativeNumber (text : List Char) : Bool :=
  let isDigit (c : Char) : Bool := (Text.digitValue? c).isSome
  match text with
  | '-' :: rest =>
      let rest := if rest.getLast? = some '\n' then rest.dropLast else rest
      match rest.dropWhile isDigit with
      | [] => !rest.isEmpty
      | '.' :: fraction => !fraction.isEmpty && fraction.all isDigit
      | _ => false
  | _ => false

/-- The options that a word with two dashes may be short for, or whose short name it starts with. -/
def candidates (scope : Scope) (text : List Char) : List Word :=
  match text with
  | '-' :: '-' :: _ =>
      let (start, tail) :=
        match splitAtEquals? text with
        | some (start, value) => (start, Tail.behindEquals value)
        | none => (text, .nothing)
      ((known scope).filter fun (name, _) => start.isPrefixOf name.toList).map
        fun (name, switch) => option switch name tail
  | _ =>
      ((known scope).filter fun (name, _) => name.toList = text.take 2).map
        fun (name, switch) => option switch name (.behindFlag (text.drop 2))

/-- A word that starts with a dash is an option when it is the name of one, also with a value
behind an equals sign, or short for exactly one. -/
def read (scope : Scope) (text : String) : Except Refusal Word :=
  let chars := text.toList
  if chars.head? != some '-' then .ok (plain text)
  else
    match (known scope).lookup text with
    | some switch => .ok (option switch text .nothing)
    | none =>
        if chars.length = 1 then .ok (plain text)
        else
          let named := (splitAtEquals? chars).bind fun (name, value) =>
            ((known scope).lookup (.ofList name)).map fun switch =>
              option switch (.ofList name) (.behindEquals value)
          match named with
          | some word => .ok word
          | none =>
              match candidates scope chars with
              | [word] => .ok word
              | [] =>
                  if isNegativeNumber chars || chars.contains ' ' then .ok (plain text)
                  else .ok (unknown text)
              | words => .error (.ambiguous text (words.filterMap fun word =>
                  match word with
                  | option _ name _ => some name
                  | _ => none))

/-- The words of a scope. Only the first `--` is a separator. -/
def readAll (scope : Scope) : List String → Except Refusal (List Word)
  | [] => .ok []
  | text :: rest =>
      if text = "--" then .ok (separator :: rest.map plain)
      else do
        return (← read scope text) :: (← readAll scope rest)

example : (readAll (.command .expand) ["a", "--it=2", "-3", "--", "--"]).toOption =
    some [plain "a", option .iterations "--iterations" (.behindEquals ['2']),
      plain "-3", separator, plain "--"] := by
  decide

end Word

end CommandLine

end GrowthGrammar
