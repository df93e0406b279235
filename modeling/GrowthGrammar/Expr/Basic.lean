import GrowthGrammar.Error
import GrowthGrammar.Number.Decimal
import GrowthGrammar.Random.Source

/-!
# Parameter expressions

The parameters of a rule's right-hand side are arithmetic expressions over the names that its
left-hand side binds.
-/

namespace GrowthGrammar

inductive Sign
  | plus
  | minus
  deriving DecidableEq, Repr

inductive Operation
  | add
  | sub
  | mul
  | div
  deriving DecidableEq, Repr

/-- Operations of a higher level bind more tightly; those of one level associate to the left. -/
def Operation.level : Operation → Nat
  | add | sub => 1
  | mul | div => 2

/-- Literals are kept as they are written. -/
inductive Expr
  | number (literal : String)
  | hexadecimal (literal : String)
  | truth (value : Bool)
  | random
  | reference (name : String)
  | signed (sign : Sign) (operand : Expr)
  | binary (operation : Operation) (left right : Expr)
  deriving DecidableEq, Repr

namespace Expr

/-- The names in an expression, from left to right. -/
def names : Expr → List String
  | reference name => [name]
  | signed _ operand => operand.names
  | binary _ left right => left.names ++ right.names
  | _ => []

/-- The names in alphabetical order, each once. -/
def sortedNames (expr : Expr) : List String :=
  expr.names.eraseDups.mergeSort (fun first second => decide (first ≤ second))

def usesRandom : Expr → Bool
  | random => true
  | signed _ operand => operand.usesRandom
  | binary _ left right => left.usesRandom || right.usesRandom
  | _ => false

def isConstant (expr : Expr) : Bool :=
  expr.names.isEmpty && !expr.usesRandom

end Expr

/-! Evaluation. -/

/-- The values of names. -/
abbrev Env := String → Option Float

namespace Env

def empty : Env :=
  fun _ => none

def bind (env : Env) (name : String) (value : Float) : Env :=
  fun other => if other = name then some value else env other

/-- Names with their values, paired up to the shorter list. Of a name that occurs twice the last
value counts. -/
def ofLists (names : List String) (values : List Float) : Env :=
  (names.zip values).foldl (fun env (name, value) => env.bind name value) empty

end Env

def Sign.apply : Sign → Float → Float
  | plus, value => value
  | minus, value => -value

/-- Division by zero is infinite or not a number, as for all doubles. -/
def Operation.apply : Operation → Float → Float → Float
  | add, left, right => left + right
  | sub, left, right => left - right
  | mul, left, right => left * right
  | div, left, right => left / right

def numberValue (literal : String) : Float :=
  (Number.Decimal.ofLiteral literal.toList).toFloat

/-- The digits of a hexadecimal literal follow its first two characters. -/
def hexadecimalValue (literal : String) : Float :=
  Number.nearestFloat false (Text.hexadecimalValue (literal.toList.drop 2)) 1

namespace Expr

/-- The value of an expression, operands from left to right. -/
def eval (env : Env) (source : Option (Source σ)) : Expr → EStateM EvalError σ Float
  | number literal => pure (numberValue literal)
  | hexadecimal literal => pure (GrowthGrammar.hexadecimalValue literal)
  | truth value => pure (if value then 1 else 0)
  | random =>
      match source with
      | some source => source.draw
      | none => throw .noSource
  | reference name =>
      match env name with
      | some value => pure value
      | none => throw (.unboundName name)
  | signed sign operand => do
      return sign.apply (← operand.eval env source)
  | binary operation left right => do
      let leftValue ← left.eval env source
      let rightValue ← right.eval env source
      return operation.apply leftValue rightValue

/-- The value of an expression that needs neither names nor random numbers. -/
def constant? (expr : Expr) : Option Float :=
  match (expr.eval .empty (none : Option (Source Unit))).run () with
  | .ok value _ => some value
  | .error _ _ => none

end Expr

/-- An expression together with the text it is written as. -/
structure Formula where
  source : String
  tree : Expr
  deriving DecidableEq, Repr

end GrowthGrammar
