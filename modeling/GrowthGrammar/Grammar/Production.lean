import GrowthGrammar.Grammar.Symbol

/-!
# Productions

A production replaces a symbol by its successor. A table of productions offers the candidates for
each symbol.
-/

namespace GrowthGrammar

/-- A production with the line of the rule block that it stands in, when it stands in one. -/
structure Production where
  predecessor : String
  bindings : List String
  successor : List Template
  line : Option Int
  deriving DecidableEq, Repr

namespace Production

def arity (production : Production) : Nat :=
  production.bindings.length

/-- The successor with the values of a symbol bound. -/
def apply (production : Production) (values : List Float) (source : Option (Source σ)) :
    EStateM EvalError σ (List Symbol) :=
  let env := Env.ofLists production.bindings values
  production.successor.mapM fun template => template.instantiate env source

/-- The text of a production has no blanks at its end. -/
def chars (production : Production) : List Char :=
  let left := production.predecessor.toList ++ parameterList (production.bindings.map String.toList)
  let right := List.intercalate [' '] (production.successor.map Template.chars)
  Text.trimEnd (left ++ [' ', '-', '>', ' '] ++ right)

def text (production : Production) : String :=
  .ofList production.chars

end Production

/-- Productions in the order in which they were added. -/
structure RuleTable where
  productions : List Production
  deriving DecidableEq, Repr

namespace RuleTable

def empty : RuleTable :=
  { productions := [] }

def add (table : RuleTable) (production : Production) : RuleTable :=
  { productions := table.productions ++ [production] }

def size (table : RuleTable) : Nat :=
  table.productions.length

/-- The names that have productions, in the order of their first one. -/
def names (table : RuleTable) : List String :=
  (table.productions.map Production.predecessor).eraseDups

/-- All productions of a name. -/
def group (table : RuleTable) (name : String) : List Production :=
  table.productions.filter fun production => production.predecessor = name

/-- The productions ordered by name. -/
def grouped (table : RuleTable) : List Production :=
  table.names.flatMap table.group

/-- The productions that fit a symbol: those with its name and its number of parameters. -/
def candidates (table : RuleTable) (name : String) (arity : Nat) : List Production :=
  (table.group name).filter fun production => production.arity = arity

/-- The names with several productions, in alphabetical order. -/
def stochasticNames (table : RuleTable) : List String :=
  (table.names.filter fun name => 1 < (table.group name).length).mergeSort
    (fun first second => decide (first ≤ second))

end RuleTable

end GrowthGrammar
