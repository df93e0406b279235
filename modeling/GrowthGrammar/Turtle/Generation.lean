import GrowthGrammar.Turtle.Basic

/-!
# Generations

The result of letting a turtle carry out a whole word of commands.
-/

namespace GrowthGrammar

/-- What is known of a run that has ended: its number among the runs of the turtle, the box around
its meshes, and the number of commands. -/
structure Generation where
  run : Nat
  bounds : Bounds
  commands : Nat

namespace Generation

/-- Where a camera looks. -/
def target (generation : Generation) : Vec3 Float :=
  generation.bounds.target

def cameraDistance : Float := -15

def camera (generation : Generation) : Vec3 Float :=
  { x := 0, y := generation.target.y, z := cameraDistance }

end Generation

namespace Turtle

/-- The scene of a generation, be it of the current run or of an earlier one. -/
def sceneOf (turtle : Turtle) (generation : Generation) : Scene :=
  (turtle.earlier[generation.run]?).getD turtle.scene

def release (turtle : Turtle) (generation : Generation) : Turtle :=
  if generation.run < turtle.earlier.size then
    { turtle with earlier := turtle.earlier.modify generation.run Scene.release }
  else { turtle with scene := turtle.scene.release }

/-- Carry out commands from a clean state. A line that is still drawn at the end is dropped. -/
def generate (commands : List Symbol) (defaults : List (String × Float)) : Motion Generation := do
  modify fun turtle => (turtle.setDefaults defaults).reset
  commands.forM obey
  modify fun turtle => { turtle with stroke? := none }
  let turtle ← get
  return { run := turtle.earlier.size, bounds := turtle.scene.bounds, commands := commands.length }

end Turtle

end GrowthGrammar
