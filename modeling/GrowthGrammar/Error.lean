import GrowthGrammar.Text.Quoted

/-!
# Errors in grammar text

What can be wrong with an expression, a symbol or a rule, and how it is told.
-/

namespace GrowthGrammar

inductive ParseError.Cause
  | invalidExpression
  | invalidParameter (raw : String)
  | emptyParameter
  | missingSymbolName
  | unbalancedClose
  | unexpectedComma
  | unbalancedOpen
  | nestedOpen
  | notConstant (raw : String)
  | missingArrow
  | missingLeftSide
  | severalLeftSymbols
  | invalidBinding (name : String)
  | duplicateBinding
  | unboundName (name : String)
  deriving DecidableEq, Repr

open Text (quote)

def ParseError.Cause.text : ParseError.Cause → String
  | invalidExpression => "invalid expression"
  | invalidParameter raw => "invalid expression " ++ quote raw
  | emptyParameter => "empty parameter"
  | missingSymbolName => "missing symbol name before '\x7b'"
  | unbalancedClose => "unbalanced '\x7d'"
  | unexpectedComma => "unexpected ','"
  | unbalancedOpen => "unbalanced '\x7b'"
  | nestedOpen => "nested '\x7b'"
  | notConstant raw => "axiom parameter " ++ quote raw ++ " is not a constant"
  | missingArrow => "missing '->'"
  | missingLeftSide => "missing left-hand side symbol"
  | severalLeftSymbols => "left-hand side must be a single symbol"
  | invalidBinding name => "invalid binding name " ++ quote name
  | duplicateBinding => "duplicate binding name"
  | unboundName name => "unbound identifier '" ++ name ++ "' in right-hand side"

/-- Where a text is wrong: the line of the rule block, and the text itself, when they are known. -/
structure Location where
  line : Option Int
  source : Option String
  deriving DecidableEq, Repr

def Location.describe (location : Location) (text : String) : String :=
  let text :=
    match location.line with
    | some line => "line " ++ toString line ++ ": " ++ text
    | none => text
  match location.source with
  | some source => text ++ ": " ++ quote source
  | none => text

structure ParseError where
  cause : ParseError.Cause
  location : Location
  deriving DecidableEq, Repr

def ParseError.message (error : ParseError) : String :=
  error.location.describe error.cause.text

/-- Evaluating an expression fails at a name without a value, and at a random number without a
source to draw it from. -/
inductive EvalError
  | unboundName (name : String)
  | noSource
  deriving DecidableEq, Repr

def EvalError.message : EvalError → String
  | unboundName name => "unbound identifier '" ++ name ++ "'"
  | noSource => "random() used without a random source"

end GrowthGrammar
