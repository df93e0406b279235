import GrowthGrammar.Proofs.Turtle.Overrides
import GrowthGrammar.Proofs.Turtle.Resources

/-!
# Turtles with a history

Whatever was done with a turtle, its next generation is that of a new turtle: of all that has
happened only the values of its settings count.
-/

namespace GrowthGrammar

open Fallible

namespace Turtle

/-! The scenes of earlier runs. -/

def withEarlier (turtle : Turtle) (earlier : Array Scene) : Turtle :=
  { turtle with earlier }

/-- The motion neither reads nor changes the scenes of earlier runs. -/
def Forgets (motion : Motion α) : Prop :=
  ∀ turtle earlier, motion.run (turtle.withEarlier earlier) =
    mapState (fun after => after.withEarlier earlier) (motion.run turtle)

namespace Forgets

theorem pure (value : α) : Forgets (Pure.pure value) :=
  fun _ _ => rfl

theorem bind {motion : Motion α} {next : α → Motion β} (forgets : Forgets motion)
    (continues : ∀ value, Forgets (next value)) : Forgets (motion >>= next) := by
  intro turtle earlier
  rw [EStateM.run_bind, EStateM.run_bind, forgets turtle earlier]
  cases motion.run turtle with
  | ok value after => exact continues value after earlier
  | error error after => rfl

theorem modify {change : Turtle → Turtle}
    (commutes : ∀ turtle earlier, change (turtle.withEarlier earlier) =
      (change turtle).withEarlier earlier) : Forgets (modify change) := by
  intro turtle earlier
  rw [EStateM.run_modify, EStateM.run_modify, commutes]
  rfl

theorem forM {act : α → Motion PUnit} (each : ∀ item, Forgets (act item)) (items : List α) :
    Forgets (items.forM act) := by
  induction items with
  | nil => exact pure _
  | cons item items induction => exact (each item).bind fun _ => induction

end Forgets

theorem startLine_withEarlier (turtle : Turtle) (earlier : Array Scene) :
    (turtle.withEarlier earlier).startLine = turtle.startLine.withEarlier earlier := by
  cases drawing : turtle.stroke? <;> simp [startLine, isDrawing, withEarlier, drawing]

theorem restore_withEarlier (turtle : Turtle) (earlier : Array Scene) :
    (turtle.withEarlier earlier).restore = turtle.restore.withEarlier earlier := by
  cases saved : turtle.stack <;> simp [restore, withEarlier, saved]

theorem withTube_withEarlier (turtle : Turtle) (earlier : Array Scene)
    (solid? : Option (Solid Float)) :
    (turtle.withEarlier earlier).withTube solid? =
      (turtle.withTube solid?).withEarlier earlier := by
  cases solid? <;> rfl

theorem forgets_endLine : Forgets endLine := by
  intro turtle earlier
  have same : (turtle.withEarlier earlier).stroke? = turtle.stroke? := rfl
  have pose : (turtle.withEarlier earlier).pose = turtle.pose := rfl
  cases drawing : turtle.stroke? with
  | none =>
      rw [run_endLine_idle drawing, run_endLine_idle (same.trans drawing)]
      rfl
  | some stroke =>
      rw [run_endLine_drawing drawing, run_endLine_drawing (same.trans drawing), pose]
      split
      · rw [withTube_withEarlier]
        rfl
      · rfl

theorem forgets_breakLine : Forgets breakLine := by
  intro turtle earlier
  rw [breakLine, EStateM.run_bind, EStateM.run_bind, EStateM.run_get, EStateM.run_get]
  have drawing : (turtle.withEarlier earlier).isDrawing = turtle.isDrawing := rfl
  dsimp only
  rw [drawing]
  split
  · exact forgets_endLine.bind (fun _ => .modify startLine_withEarlier) turtle earlier
  · rfl

theorem forgets_rotate (axis : Axis) (degrees : Float) : Forgets (rotate axis degrees) := by
  intro turtle earlier
  rw [rotate, EStateM.run_bind, EStateM.run_bind, EStateM.run_get, EStateM.run_get]
  have pose : (turtle.withEarlier earlier).pose = turtle.pose := rfl
  dsimp only
  rw [pose]
  split <;> rfl

theorem forgets_perform (command : Command) : Forgets (perform command) := by
  intro turtle earlier
  rw [perform, EStateM.run_bind, EStateM.run_bind, EStateM.run_get, EStateM.run_get]
  dsimp only
  cases command with
  | rotate axis sign angle => exact forgets_rotate _ _ turtle earlier
  | endLine => exact forgets_endLine turtle earlier
  | push => exact forgets_breakLine.bind (fun _ => .modify fun _ _ => rfl) turtle earlier
  | pop => exact forgets_breakLine.bind (fun _ => .modify restore_withEarlier) turtle earlier
  | startLine =>
      dsimp only
      rw [startLine_withEarlier]
      rfl
  | _ => rfl

theorem forgets_obey (symbol : Symbol) : Forgets (obey symbol) := by
  rw [obey]
  split
  · exact forgets_perform _
  · exact .pure ()

end Turtle

/-- Two generations of two turtles that nothing tells apart but their numbers among the runs of
their turtles. -/
structure Generation.Agrees (first : Generation) (firstTurtle : Turtle) (second : Generation)
    (secondTurtle : Turtle) : Prop where
  /-- The same meshes in the same order. A mesh is its kind, its frame, its vertices and faces, and
  its material with the identity by which it shares it with other meshes. -/
  meshes : (firstTurtle.sceneOf first).meshes = (secondTurtle.sceneOf second).meshes
  /-- The same resources at the same places. -/
  arena : (firstTurtle.sceneOf first).arena = (secondTurtle.sceneOf second).arena
  size : (firstTurtle.sceneOf first).arena.size = (secondTurtle.sceneOf second).arena.size
  bounds : first.bounds = second.bounds
  target : first.target = second.target
  camera : first.camera = second.camera
  commands : first.commands = second.commands

namespace Turtle

/-- Two runs end in the same way: both with the same error, or both with a generation. -/
inductive EndAlike : EStateM.Result TurtleError Turtle Generation →
    EStateM.Result TurtleError Turtle Generation → Prop
  | completed {first second : Generation} {firstTurtle secondTurtle : Turtle} :
      first.Agrees firstTurtle second secondTurtle →
      EndAlike (.ok first firstTurtle) (.ok second secondTurtle)
  | failed {error : TurtleError} {firstTurtle secondTurtle : Turtle} :
      EndAlike (.error error firstTurtle) (.error error secondTurtle)

/-- Of a turtle a generation uses the defaults only. -/
theorem endAlike_of_defaults_eq {first second : Turtle} (same : first.defaults = second.defaults)
    (commands : List Symbol) (settings : List (String × Float)) :
    EndAlike ((generate commands settings).run first)
      ((generate commands settings).run second) := by
  have clean : (first.setDefaults settings).reset =
      (second.setDefaults settings).reset.withEarlier (first.earlier.push first.scene.release) := by
    simp only [reset, setDefaults, same]
    rfl
  rw [run_generate, run_generate, clean, Forgets.forM forgets_obey commands]
  cases (commands.forM obey).run (second.setDefaults settings).reset with
  | error error after => exact .failed
  | ok value last =>
      refine .completed ⟨?_, ?_, ?_, rfl, rfl, rfl, rfl⟩
      all_goals
        rw [sceneOf_current rfl, sceneOf_current rfl]
        rfl

end Turtle

/-- What can be done with a turtle. Its commands can be given as symbols and directly, and any of
its generations can be released at any time. -/
inductive Use
  | obey (symbol : Symbol)
  | perform (command : Command)
  | rotate (axis : String) (angle : Option Float)
  | reset
  | setDefaults (values : List (String × Float))
  | generate (commands : List Symbol) (settings : List (String × Float))
  | release (generation : Generation)

/-- The values that a use gives to settings. -/
def Use.settings : Use → List (String × Float)
  | .setDefaults values => values
  | .generate _ settings => settings
  | _ => []

namespace Turtle

def use (turtle : Turtle) : Use → Turtle
  | .obey symbol => turtle.behind (obey symbol)
  | .perform command => turtle.behind (perform command)
  | .rotate axis angle => turtle.behind (rotateNamed axis angle)
  | .reset => turtle.reset
  | .setDefaults values => turtle.setDefaults values
  | .generate commands settings => turtle.behind (generate commands settings)
  | .release generation => turtle.release generation

theorem behind_rotateNamed_defaults (turtle : Turtle) (axis : String) (angle : Option Float) :
    (turtle.behind (rotateNamed axis angle)).defaults = turtle.defaults := by
  rw [behind, rotateNamed, EStateM.run_bind, EStateM.run_get]
  dsimp only
  split <;> rfl

theorem behind_generate_defaults (turtle : Turtle) (commands : List Symbol)
    (settings : List (String × Float)) :
    (turtle.behind (generate commands settings)).defaults = turtle.defaults.setNamed settings := by
  have kept := congrArg Prod.fst (background_of_run commands (turtle.setDefaults settings).reset)
  rw [behind, run_generate]
  cases ended : (commands.forM obey).run (turtle.setDefaults settings).reset with
  | ok value last =>
      rw [ended] at kept
      exact kept
  | error error after =>
      rw [ended] at kept
      exact kept

theorem release_defaults (turtle : Turtle) (generation : Generation) :
    (turtle.release generation).defaults = turtle.defaults := by
  unfold release
  split <;> rfl

/-- A use changes the defaults by the values that it gives to settings, and by nothing else. -/
theorem use_defaults (turtle : Turtle) (use : Use) :
    (turtle.use use).defaults = turtle.defaults.setNamed use.settings := by
  cases use with
  | obey symbol => exact congrArg Prod.fst (background_of_obey symbol turtle)
  | perform command => exact congrArg Prod.fst (background_of_perform command turtle)
  | rotate axis angle => exact turtle.behind_rotateNamed_defaults axis angle
  | reset => rfl
  | setDefaults values => rfl
  | generate commands settings => exact turtle.behind_generate_defaults commands settings
  | release generation => exact turtle.release_defaults generation

theorem uses_defaults (turtle : Turtle) (uses : List Use) :
    (uses.foldl use turtle).defaults = turtle.defaults.setNamed (uses.flatMap Use.settings) := by
  induction uses generalizing turtle with
  | nil => rfl
  | cons first uses induction =>
      rw [List.foldl_cons, induction, use_defaults, List.flatMap_cons, Defaults.setNamed_append]

/-- Whatever was done with a turtle, be it completed or not, a generation ends as on a new turtle
that is made with the values which its settings have been given last. -/
theorem generate_endAlike_new (initial : List (String × Float)) (uses : List Use)
    (commands : List Symbol) (settings : List (String × Float)) :
    let used := uses.foldl use (new (Defaults.standard.setNamed initial))
    let overrides := Defaults.overrides (initial ++ uses.flatMap Use.settings)
    EndAlike ((generate commands settings).run used)
      ((generate commands settings).run (new (Defaults.standard.setNamed overrides))) := by
  apply endAlike_of_defaults_eq
  rw [uses_defaults, Defaults.setNamed_overrides, Defaults.setNamed_append]
  rfl

end Turtle

end GrowthGrammar
