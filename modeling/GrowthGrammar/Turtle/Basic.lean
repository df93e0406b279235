import GrowthGrammar.Curve.Tube
import GrowthGrammar.Scene.Basic
import GrowthGrammar.Turtle.Command
import GrowthGrammar.Turtle.Defaults

/-!
# The turtle

A turtle moves a frame through space and leaves meshes behind. It can save its pose and return to
it, and draw a line that becomes a tube when it ends.
-/

namespace GrowthGrammar

/-- What the turtle saves when it branches. -/
structure Pose where
  frame : Frame Float
  material : Tracked Material
  tension : Float
  radius : Float

/-- The poses saved last come first. Scenes of earlier runs are kept in order. -/
structure Turtle where
  defaults : Defaults
  earlier : Array Scene
  scene : Scene
  pose : Pose
  stack : List Pose
  stroke? : Option Stroke

inductive TurtleError
  | rotation (error : RotationError)
  | curve (error : CurveError)
  deriving DecidableEq, Repr

def TurtleError.message : TurtleError → String
  | rotation error => error.message
  | curve error => error.message

/-- What a turtle has done stays done when it fails. -/
abbrev Motion := EStateM TurtleError Turtle

namespace Turtle

def standardTension : Float := 0.5

def maxSegments : Int := 256

/-- A turtle at the origin with a fresh scene, which holds the standard material. -/
def start (defaults : Defaults) (earlier : Array Scene) : Turtle :=
  let (scene, material) := Scene.empty.addMaterial (.ofParameters [])
  { defaults
    earlier
    scene
    pose := { frame := .initial, material, tension := standardTension, radius := defaults.radius }
    stack := []
    stroke? := none }

def new (defaults : Defaults) : Turtle :=
  start defaults #[]

/-- Release what the run has made, and start another one. -/
def reset (turtle : Turtle) : Turtle :=
  start turtle.defaults (turtle.earlier.push turtle.scene.release)

def setDefaults (turtle : Turtle) (values : List (String × Float)) : Turtle :=
  { turtle with defaults := turtle.defaults.setNamed values }

def isDrawing (turtle : Turtle) : Bool :=
  turtle.stroke?.isSome

/-- A number of segments. What is not finite counts as missing. -/
def segmentCount (count : Option Float) (standard : Int) : Int :=
  match count.map Number.truncate with
  | some (.ok count) => min count maxSegments
  | _ => standard

/-! Changes to the state of a turtle that cannot fail. -/

def withFrame (turtle : Turtle) (frame : Frame Float) : Turtle :=
  { turtle with pose := { turtle.pose with frame } }

/-- Move to the next frame; a line that is being drawn gets one more point. -/
def moveTo (turtle : Turtle) (frame : Frame Float) : Turtle :=
  { turtle.withFrame frame with
    stroke? := turtle.stroke?.map fun stroke => stroke.add frame.position }

def move (turtle : Turtle) (length : Float) : Turtle :=
  turtle.moveTo (turtle.pose.frame.translate length)

def setMaterial (turtle : Turtle) (parameters : List Float) : Turtle :=
  let (scene, material) := turtle.scene.addMaterial (.ofParameters parameters)
  { turtle with scene, pose := { turtle.pose with material } }

/-- A line that is already being drawn goes on. -/
def startLine (turtle : Turtle) : Turtle :=
  if turtle.isDrawing then turtle
  else { turtle with stroke? := some (.start turtle.pose.frame.position) }

def emitAt (turtle : Turtle) (kind : String) (solid : Solid Float) (frame : Frame Float) : Turtle :=
  { turtle with scene := turtle.scene.addMesh kind solid turtle.pose.material frame }

def emit (turtle : Turtle) (kind : String) (solid : Solid Float) : Turtle :=
  turtle.emitAt kind solid turtle.pose.frame

def save (turtle : Turtle) : Turtle :=
  { turtle with stack := turtle.pose :: turtle.stack }

def restore (turtle : Turtle) : Turtle :=
  match turtle.stack with
  | [] => turtle
  | pose :: stack => { turtle with pose, stack }

/-! Movements that can fail. -/

def rotate (axis : Axis) (degrees : Float) : Motion Unit := do
  let turtle ← get
  match turtle.pose.frame.rotate? axis degrees with
  | .ok frame => set (turtle.withFrame frame)
  | .error error => throw (.rotation error)

def rotateNamed (name : String) (angle : Option Float) : Motion Unit := do
  let turtle ← get
  match turtle.pose.frame.rotateNamed? name (angle.getD turtle.defaults.angle) with
  | .ok frame => set (turtle.withFrame frame)
  | .error error => throw (.rotation error)

/-- A line is over also when no tube can be made of it. -/
def endLine : Motion Unit := do
  let turtle ← get
  match turtle.stroke? with
  | none => return
  | some stroke =>
      set { turtle with stroke? := none }
      match stroke.tube? turtle.pose.radius turtle.pose.tension with
      | .ok none => return
      | .ok (some solid) => modify fun turtle => turtle.emitAt "tube" solid .identity
      | .error error => throw (.curve error)

/-- End a line that is being drawn and start another one at the same place. -/
def breakLine : Motion Unit := do
  if (← get).isDrawing then
    endLine
    modify startLine

def signedAngle (sign : Sign) (angle : Float) : Float :=
  match sign with
  | .plus => 1 * angle
  | .minus => -1 * angle

/-- Carry out a command. -/
def perform (command : Command) : Motion Unit := do
  let turtle ← get
  let defaults := turtle.defaults
  let pose := turtle.pose
  match command with
  | .rotate axis sign angle =>
      rotate axis (signedAngle sign (angle.getD defaults.angle))
  | .forward length => set (turtle.move (length.getD defaults.length))
  | .startLine => set turtle.startLine
  | .endLine => endLine
  | .line length startRadius endRadius =>
      let length := length.getD defaults.length
      let radius (given : Option Float) : Float := given.getD pose.radius
      let solid := Solid.segment length (radius startRadius) (radius endRadius) 32
      set ((turtle.emit "line" solid).move length)
  | .push => do
      breakLine
      modify save
  | .pop => do
      breakLine
      modify restore
  | .sphere radius width height =>
      let radius := radius.getD (defaults.size / 2)
      set (turtle.emit "sphere" (.sphere radius (segmentCount width 12) (segmentCount height 6)))
  | .box width height depth =>
      let size := defaults.size
      set (turtle.emit "box" (.box (width.getD size) (height.getD size) (depth.getD size)))
  | .cube side =>
      let side := side.getD defaults.size
      set (turtle.emit "box" (.box side side side))
  | .cone radius height count =>
      let size := defaults.size
      set (turtle.emit "cone"
        (.cone (radius.getD (size / 2)) (height.getD size) (segmentCount count 32)))
  | .radius radius =>
      set { turtle with pose := { pose with radius := radius.getD defaults.radius } }
  | .tension tension =>
      set { turtle with pose := { pose with tension := tension.getD standardTension } }
  | .material parameters => set (turtle.setMaterial parameters)

/-- Symbols that are no commands are ignored. -/
def obey (symbol : Symbol) : Motion Unit :=
  match Command.ofSymbol? symbol with
  | some command => perform command
  | none => pure ()

end Turtle

end GrowthGrammar
