import GrowthGrammar.Expr.Basic
import GrowthGrammar.Expr.Token
import GrowthGrammar.Text.Blank

/-!
# Parsing expressions

The parser reads tokens one by one. Between tokens it knows what waits to the left of the place it
has reached, innermost first, and what it expects there.
-/

namespace GrowthGrammar

namespace Parser

/-- What waits for the operand that is being read. -/
inductive Pending
  | group
  | sign (sign : Sign)
  | operand (left : Expr) (operation : Operation)
  deriving DecidableEq, Repr

/-- Before an operand, inside of `random()`, or behind an operand. -/
inductive Phase
  | before
  | afterRandom
  | insideRandom
  | behind (operand : Expr)
  deriving DecidableEq, Repr

structure State where
  pending : List Pending
  phase : Phase
  deriving DecidableEq, Repr

/-- Complete what waits for an operand, as far as it binds at least as tightly as an operation of
the given level that follows. -/
def settle (level : Nat) : List Pending → Expr → List Pending × Expr
  | .sign sign :: pending, operand => settle level pending (.signed sign operand)
  | .operand left operation :: pending, operand =>
      if level ≤ operation.level then settle level pending (.binary operation left operand)
      else (.operand left operation :: pending, operand)
  | pending, operand => (pending, operand)

def State.expecting (pending : List Pending) : State :=
  { pending, phase := .before }

def State.reached (pending : List Pending) (operand : Expr) : State :=
  { pending, phase := .behind operand }

def binary (operation : Operation) (pending : List Pending) (operand : Expr) : Option State :=
  let (pending, left) := settle operation.level pending operand
  some (.expecting (.operand left operation :: pending))

/-- A word as an operand: `true`, `false` and `random` have a meaning of their own. -/
def word (pending : List Pending) (word : List Char) : Option State :=
  if word = ['t', 'r', 'u', 'e'] then some (.reached pending (.truth true))
  else if word = ['f', 'a', 'l', 's', 'e'] then some (.reached pending (.truth false))
  else if word = ['r', 'a', 'n', 'd', 'o', 'm'] then some { pending, phase := .afterRandom }
  else some (.reached pending (.reference (.ofList word)))

def step (state : State) (token : Token) : Option State :=
  let pending := state.pending
  match state.phase, token with
  | .before, .number literal => some (.reached pending (.number (.ofList literal)))
  | .before, .hexadecimal literal => some (.reached pending (.hexadecimal (.ofList literal)))
  | .before, .word letters => word pending letters
  | .before, .plus => some (.expecting (.sign .plus :: pending))
  | .before, .minus => some (.expecting (.sign .minus :: pending))
  | .before, .openParen => some (.expecting (.group :: pending))
  | .afterRandom, .openParen => some { pending, phase := .insideRandom }
  | .insideRandom, .closeParen => some (.reached pending .random)
  | .behind operand, .plus => binary .add pending operand
  | .behind operand, .minus => binary .sub pending operand
  | .behind operand, .times => binary .mul pending operand
  | .behind operand, .divide => binary .div pending operand
  | .behind operand, .closeParen =>
      match settle 0 pending operand with
      | (.group :: pending, operand) => some (.reached pending operand)
      | _ => none
  | _, _ => none

/-- At the end an operand has been read, and nothing but operators waits for it. -/
def State.result? (state : State) : Option Expr :=
  match state.phase with
  | .behind operand =>
      match settle 0 state.pending operand with
      | ([], operand) => some operand
      | _ => none
  | _ => none

def parse? (tokens : List Token) : Option Expr :=
  (tokens.foldlM step (.expecting [])).bind State.result?

end Parser

namespace Expr

def ofText? (text : List Char) : Option Expr :=
  (Token.list? text).bind Parser.parse?

example : ofText? "1+2*3".toList =
    some (.binary .add (.number "1") (.binary .mul (.number "2") (.number "3"))) := by decide

example : ofText? "-a-b".toList =
    some (.binary .sub (.signed .minus (.reference "a")) (.reference "b")) := by decide

end Expr

/-- Compile an expression. Blanks around it are not part of it. -/
def Formula.compile (text : String) : Except ParseError Formula :=
  let trimmed := Text.trim text.toList
  let source := String.ofList trimmed
  match Expr.ofText? trimmed with
  | some tree => .ok { source, tree }
  | none =>
      .error { cause := .invalidExpression, location := { line := none, source := some source } }

end GrowthGrammar
