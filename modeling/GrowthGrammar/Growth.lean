import GrowthGrammar.Grammar.Parse
import GrowthGrammar.Preset
import GrowthGrammar.Rewrite
import GrowthGrammar.Turtle.Generation

/-!
# Growing

From the texts of a grammar to a generation in one go.
-/

namespace GrowthGrammar

inductive GrowthError
  | parse (error : ParseError)
  | derivation (error : DerivationError)
  | turtle (error : TurtleError)
  deriving DecidableEq, Repr

def GrowthError.message : GrowthError → String
  | parse error => error.message
  | derivation error => error.message
  | turtle error => error.message

/-- Parse a grammar, derive a word from it, and let the turtle carry the word out. -/
def grow (start : String) (lines : List String) (iterations : Int) (source : Source σ)
    (limit : Option Int) (settings : List (String × Float)) :
    EStateM GrowthError (Turtle × σ) Generation := do
  let grammar ← MonadExcept.ofExcept ((Grammar.parse start lines).mapError .parse)
  let (turtle, before) ← get
  let (derived, after) := expand grammar.rules source limit iterations grammar.start before
  set (turtle, after)
  let commands ← MonadExcept.ofExcept (derived.mapError .derivation)
  match (Turtle.generate commands settings).run turtle with
  | .ok generation last =>
      set (last, after)
      return generation
  | .error error last =>
      set (last, after)
      throw (.turtle error)

def Preset.grow (preset : Preset) (iterations : Int) (source : Source σ) :
    EStateM GrowthError (Turtle × σ) Generation :=
  GrowthGrammar.grow preset.start (ruleLines preset.rules) iterations source none []

end GrowthGrammar
