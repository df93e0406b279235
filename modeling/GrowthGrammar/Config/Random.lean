import GrowthGrammar.Config.Basic

/-!
# Random configurations

Configurations of tapered branching plants, to experiment with.
-/

namespace GrowthGrammar

namespace RandomConfig

/-- A piece of a random successor. -/
inductive Piece
  | segment (length shrink : String)
  | thinSegment (length shrink : String)
  | growth (shrink : String)
  | turn (sign axis : String) (degrees : Option Int)
  | openBranch
  | closeBranch
  deriving DecidableEq, Repr

def braced (content : String) : String :=
  "\x7b" ++ content ++ "\x7d"

def Piece.text : Piece → String
  | segment length shrink => "l" ++ braced (length ++ ", r, r*" ++ shrink)
  | thinSegment length shrink => "l" ++ braced (length ++ ", r*" ++ shrink ++ ", r*" ++ shrink)
  | growth shrink => "A" ++ braced ("r*" ++ shrink)
  | turn sign axis none => sign ++ axis
  | turn sign axis (some degrees) => sign ++ axis ++ braced (toString degrees)
  | openBranch => "["
  | closeBranch => "]"

def Piece.isGrowth : Piece → Bool
  | growth _ => true
  | _ => false

def branchChance : Float := 0.2

def maxDepth : Nat := 3

def drawTurn (source : Source σ) : EStateM DrawError σ Piece := do
  let sign ← source.choose ["+", "-"]
  let axis ← source.choose ["x", "y", "z"]
  let roll ← source.draw
  if roll < 0.5 then return .turn sign axis none
  else return .turn sign axis (some (← source.between 10 60))

def drawLeaf (source : Source σ) (length shrink : String) : EStateM DrawError σ Piece := do
  let roll ← source.draw
  if roll < 0.3 then return .thinSegment length shrink
  else if roll < 0.5 then return .growth shrink
  else drawTurn source

/-- Draw a number of pieces inside of some open branches, and close these. -/
def drawPieces (source : Source σ) (length shrink : String) :
    Nat → Nat → EStateM DrawError σ (List Piece)
  | 0, depth => return List.replicate depth .closeBranch
  | count + 1, depth => do
      let roll ← source.draw
      if roll < branchChance && depth < maxDepth then
        return .openBranch :: (← drawPieces source length shrink count (depth + 1))
      else if roll < branchChance * 2 && 0 < depth then
        return .closeBranch :: (← drawPieces source length shrink count (depth - 1))
      else
        let leaf ← drawLeaf source length shrink
        return leaf :: (← drawPieces source length shrink count depth)

/-- A successor starts with a segment, and grows on somewhere. -/
def drawSuccessor (source : Source σ) (count : Nat) : EStateM DrawError σ (List Piece) := do
  let shrink ← source.choose ["0.5", "0.6", "0.7", "0.8"]
  let length ← source.choose ["0.1", "0.2", "0.3"]
  let pieces ← drawPieces source length shrink count 0
  let growth := if pieces.any Piece.isGrowth then [] else [.growth shrink]
  return .segment length shrink :: pieces ++ growth

def successorText (pieces : List Piece) : String :=
  " ".intercalate (pieces.map Piece.text)

def colored (color : String) (roughness : String) : String :=
  "m" ++ braced (color ++ ", " ++ roughness ++ ", 0")

def blossom (leaf : String) : String :=
  colored leaf "0.7" ++ " sphere" ++ braced "r + random()/10"

def ruleText (successor : String) : String :=
  "A" ++ braced "r" ++ " -> " ++ successor

/-- What is drawn for a plant: its numbers and colors, and the successors that it grows by. -/
structure Plant where
  iterations : Int
  angle : Int
  radius : String
  bark : String
  leaf : String
  successors : List (List Piece)
  seed : Int

namespace Plant

def start (plant : Plant) : String :=
  colored plant.bark "0.9" ++ " A" ++ braced plant.radius

/-- The last rule makes a blossom, so that there are always several rules for the one symbol and
the grammar is stochastic. -/
def rules (plant : Plant) : List String :=
  (plant.successors.map fun pieces => ruleText (successorText pieces)) ++
    [ruleText (blossom plant.leaf)]

def json (plant : Plant) : Json :=
  .object
    [("name", .string "Random L-System"),
      ("axiom", .string plant.start),
      ("rules", .array (plant.rules.map .string)),
      ("iterations", .int plant.iterations),
      ("seed", .int plant.seed),
      ("defaults", .object [("angle", .int plant.angle)])]

end Plant

def drawGrowth (source : Source σ) : EStateM DrawError σ (List Piece) := do
  let count ← source.between 6 14
  drawSuccessor source count.toNat

/-- Every other plant has a second way to grow. -/
def drawOthers (source : Source σ) : EStateM DrawError σ (List (List Piece)) := do
  let roll ← source.draw
  if roll < 0.5 then return [← drawGrowth source] else return []

def draw (source : Source σ) : EStateM DrawError σ Plant := do
  let iterations ← source.between 3 5
  let angle ← source.choose [15, 20, 25, 30, 45]
  let radius ← source.choose ["0.05", "0.1", "0.2"]
  let bark ← source.choose ["0x594d30", "0x6b4f2a", "0x3e3a2f"]
  let leaf ← source.choose ["0xf695c3", "0x7bc86c", "0xf2c94c"]
  let successor ← drawGrowth source
  let others ← drawOthers source
  let seed ← source.between 0 0x7fffffff
  return { iterations, angle, radius, bark, leaf, successors := successor :: others, seed }

/-- A draw can fail, and what was drawn may be no configuration, or one without a grammar. -/
inductive Failure
  | draw (error : DrawError)
  | config (failure : ConfigFailure)
  | grammar (error : ParseError)
  deriving DecidableEq, Repr

/-- The checks that a configuration passes before it is used. -/
def check (value : Json) : Except Failure Grammar := do
  let config ← (Config.ofJson value).mapError .config
  config.grammar.mapError .grammar

/-- Draw a configuration, and check it before it is handed out. -/
def generate (source : Source σ) : EStateM Failure σ Json := do
  let plant ← (draw source).adaptExcept .draw
  let _ ← MonadExcept.ofExcept (check plant.json)
  return plant.json

end RandomConfig

end GrowthGrammar
