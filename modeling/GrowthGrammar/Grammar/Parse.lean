import GrowthGrammar.Grammar.Production
import GrowthGrammar.Grammar.Scan
import GrowthGrammar.Text.Lines

/-!
# Parsing grammars

A grammar is written as a start word and a block of rules, one to a line.
-/

namespace GrowthGrammar

open Text (trim)

/-- Compile the raw text of a parameter; an error shows it within the text it stands in. -/
def compileParameter (location : Location) (raw : String) : Except ParseError Formula :=
  (Formula.compile raw).mapError fun _ => { cause := .invalidParameter raw, location }

/-! A start word has constants as parameters. -/

def constantParameter (location : Location) (raw : String) : Except ParseError Float := do
  let formula ← compileParameter location raw
  match formula.tree.constant? with
  | some value => return value
  | none => throw { cause := .notConstant raw, location }

def parseWord (text : String) : Except ParseError (List Symbol) := do
  let location : Location := { line := none, source := some text }
  let raws ← RawSymbol.scanWithin location text.toList
  raws.mapM fun raw => do
    return { name := raw.name, parameters := ← raw.parameters.mapM (constantParameter location) }

/-! A rule has a single symbol with names for its parameters to the left of the first arrow, and
symbols with expressions over these names to the right. -/

def splitAtArrow? : List Char → Option (List Char × List Char)
  | [] => none
  | '-' :: '>' :: rest => some ([], rest)
  | c :: rest => (splitAtArrow? rest).map fun (left, right) => (c :: left, right)

def isBindingName (name : String) : Bool :=
  Token.isWord name.toList && !Token.reserved.contains name.toList

def parseLeftSide (location : Location) (text : List Char) : Except ParseError RawSymbol := do
  match ← RawSymbol.scanWithin location text with
  | [] => throw { cause := .missingLeftSide, location }
  | [symbol] =>
      match symbol.parameters.find? fun name => !isBindingName name with
      | some name => throw { cause := .invalidBinding name, location }
      | none =>
          if symbol.parameters.Nodup then return symbol
          else throw { cause := .duplicateBinding, location }
  | _ => throw { cause := .severalLeftSymbols, location }

/-- The first of the names of an expression, in alphabetical order, that is not bound. -/
def unboundName? (bindings : List String) (formula : Formula) : Option String :=
  formula.tree.sortedNames.find? fun name => !bindings.contains name

def parseTemplate (location : Location) (bindings : List String) (raw : RawSymbol) :
    Except ParseError Template := do
  let formulas ← raw.parameters.mapM (compileParameter location)
  match formulas.findSome? (unboundName? bindings) with
  | some name => throw { cause := .unboundName name, location }
  | none => return { name := raw.name, formulas }

def parseProduction (text : String) (line : Option Int) : Except ParseError Production := do
  let source := trim text.toList
  let location : Location := { line, source := some (.ofList source) }
  match splitAtArrow? source with
  | none => throw { cause := .missingArrow, location }
  | some (left, right) =>
      let symbol ← parseLeftSide location left
      let raws ← RawSymbol.scanWithin location right
      let successor ← raws.mapM (parseTemplate location symbol.parameters)
      return { predecessor := symbol.name, bindings := symbol.parameters, successor, line }

/-! Blank lines of a rule block, and lines that start with `#`, are skipped. -/

def isRule (line : String) : Bool :=
  match trim line.toList with
  | [] => false
  | c :: _ => c != '#'

/-- The lines that hold rules, each with its number; the first line has number 1. -/
def numberedRules (lines : List String) : List (String × Nat) :=
  (lines.zipIdx 1).filter fun (line, _) => isRule line

def parseRuleLines (lines : List String) : Except ParseError RuleTable := do
  let productions ← (numberedRules lines).mapM fun (line, number) =>
    parseProduction line (some number)
  return { productions }

def ruleLines (block : String) : List String :=
  (Text.lines block.toList).map String.ofList

def parseRules (block : String) : Except ParseError RuleTable :=
  parseRuleLines (ruleLines block)

structure Grammar where
  start : List Symbol
  rules : RuleTable

/-- The start word is parsed first. -/
def Grammar.parse (start : String) (lines : List String) : Except ParseError Grammar := do
  return { start := ← parseWord start, rules := ← parseRuleLines lines }

end GrowthGrammar
