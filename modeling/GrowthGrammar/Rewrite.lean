import GrowthGrammar.Grammar.Production

/-!
# Rewriting

A pass replaces all symbols of a word at once. When several productions fit a symbol, one of them
is drawn for this occurrence alone; symbols that no production fits are kept.
-/

namespace GrowthGrammar

inductive RewriteError
  | eval (error : EvalError)
  | draw (error : DrawError)
  deriving DecidableEq, Repr

def RewriteError.message : RewriteError → String
  | eval error => error.message
  | draw error => error.message

/-- Draw one of several productions. A single production is not drawn. -/
def drawProduction (source : Option (Source σ)) :
    List Production → EStateM DrawError σ (Option Production)
  | [] => return none
  | [production] => return some production
  | candidates =>
      match source with
      | none => throw .noSource
      | some source => return some (← source.choose candidates)

def rewriteSymbol (rules : RuleTable) (source : Option (Source σ)) (symbol : Symbol) :
    EStateM RewriteError σ (List Symbol) := do
  let candidates := rules.candidates symbol.name symbol.parameters.length
  match ← (drawProduction source candidates).adaptExcept .draw with
  | none => return [symbol]
  | some production => (production.apply symbol.parameters source).adaptExcept .eval

def rewriteOnce (rules : RuleTable) (source : Option (Source σ)) (word : List Symbol) :
    EStateM RewriteError σ (List Symbol) := do
  return (← word.mapM (rewriteSymbol rules source)).flatten

/-! A derivation repeats passes. -/

inductive ExpansionError
  | negativeIterations (iterations : Int)
  | tooManySymbols (limit : Int) (pass : Nat)
  deriving DecidableEq, Repr

def ExpansionError.message : ExpansionError → String
  | negativeIterations iterations => "iterations must be >= 0, got " ++ toString iterations
  | tooManySymbols limit pass =>
      "derivation exceeds " ++ toString limit ++ " symbols after pass " ++ toString pass

inductive DerivationError
  | rewrite (error : RewriteError)
  | expansion (error : ExpansionError)
  deriving DecidableEq, Repr

def DerivationError.message : DerivationError → String
  | rewrite error => error.message
  | expansion error => error.message

/-- The generations that a derivation reaches, the start word first, the error that ends it early,
and the state of the source behind it. -/
structure Derivation (σ : Type) where
  generations : List (List Symbol)
  error? : Option DerivationError
  state : σ

namespace Derivation

/-- A word may have at most `limit` symbols. -/
def exceeds (limit : Option Int) (word : List Symbol) : Option Int :=
  limit.filter fun limit => limit < word.length

/-- Derive from a word with some passes done and others to do. -/
def passesFrom (rules : RuleTable) (source : Source σ) (limit : Option Int) (done : Nat) :
    Nat → List Symbol → σ → Derivation σ
  | 0, word, state => { generations := [word], error? := none, state }
  | passes + 1, word, state =>
      match rewriteOnce rules (some source) word state with
      | .error error state => { generations := [word], error? := some (.rewrite error), state }
      | .ok next state =>
          match exceeds limit next with
          | some limit =>
              { generations := [word]
                error? := some (.expansion (.tooManySymbols limit (done + 1)))
                state }
          | none =>
              let rest := Derivation.passesFrom rules source limit (done + 1) passes next state
              { rest with generations := word :: rest.generations }

def run (rules : RuleTable) (source : Source σ) (limit : Option Int) (iterations : Int)
    (start : List Symbol) (state : σ) : Derivation σ :=
  if iterations < 0 then
    { generations := [], error? := some (.expansion (.negativeIterations iterations)), state }
  else Derivation.passesFrom rules source limit 0 iterations.toNat start state

/-- The last generation of a derivation that ends without an error. -/
def result (derivation : Derivation σ) : Except DerivationError (List Symbol) :=
  match derivation.error? with
  | some error => .error error
  | none => .ok (derivation.generations.getLast?.getD [])

end Derivation

/-- Rewrite a word `iterations` times. -/
def expand (rules : RuleTable) (source : Source σ) (limit : Option Int) (iterations : Int)
    (start : List Symbol) (state : σ) : Except DerivationError (List Symbol) × σ :=
  let derivation := Derivation.run rules source limit iterations start state
  (derivation.result, derivation.state)

end GrowthGrammar
