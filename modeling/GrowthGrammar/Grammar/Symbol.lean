import GrowthGrammar.Expr.Parse
import GrowthGrammar.Number.Format

/-!
# Symbols

A derivation is a sequence of symbols. A symbol has a name and numbers as parameters.
-/

namespace GrowthGrammar

structure Symbol where
  name : String
  parameters : List Float

/-- Parameters stand in braces behind the name, with commas between them. -/
def parameterList (parameters : List (List Char)) : List Char :=
  if parameters.isEmpty then []
  else '{' :: List.intercalate [',', ' '] parameters ++ ['}']

def Symbol.chars (symbol : Symbol) : List Char :=
  symbol.name.toList ++ parameterList (symbol.parameters.map Number.parameterChars)

def Symbol.text (symbol : Symbol) : String :=
  .ofList symbol.chars

/-- The text of a derivation. -/
def symbolsText (symbols : List Symbol) : String :=
  " ".intercalate (symbols.map Symbol.text)

/-- A symbol of a right-hand side, whose parameters are still expressions. -/
structure Template where
  name : String
  formulas : List Formula
  deriving DecidableEq, Repr

namespace Template

def chars (template : Template) : List Char :=
  template.name.toList ++ parameterList (template.formulas.map fun formula => formula.source.toList)

def text (template : Template) : String :=
  .ofList template.chars

def instantiate (template : Template) (env : Env) (source : Option (Source σ)) :
    EStateM EvalError σ Symbol := do
  let parameters ← template.formulas.mapM fun formula => formula.tree.eval env source
  return { name := template.name, parameters }

end Template

end GrowthGrammar
