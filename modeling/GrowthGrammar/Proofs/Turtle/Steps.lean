import GrowthGrammar.Proofs.Fallible
import GrowthGrammar.Turtle.Generation

/-!
# Steps of a turtle

What a turtle is behind a command that it has carried out, command by command.
-/

namespace GrowthGrammar

open Fallible

namespace Turtle

/-- The line is over, and a tube that was made of it stands in the scene. -/
def withTube (turtle : Turtle) (solid? : Option (Solid Float)) : Turtle :=
  let ended := { turtle with stroke? := none }
  match solid? with
  | none => ended
  | some solid => ended.emitAt "tube" solid .identity

/-- The turtle behind the end of its line, if it draws one. -/
inductive Ends (before : Turtle) : Turtle → Prop
  | idle : before.stroke? = none → Ends before before
  | drawing {stroke : Stroke} {solid? : Option (Solid Float)} : before.stroke? = some stroke →
      stroke.tube? before.pose.radius before.pose.tension = .ok solid? →
      Ends before (before.withTube solid?)

/-- The turtle behind a break of its line, which goes on where it has ended. -/
inductive Breaks (before : Turtle) : Turtle → Prop
  | idle : before.stroke? = none → Breaks before before
  | drawing {stroke : Stroke} {solid? : Option (Solid Float)} : before.stroke? = some stroke →
      stroke.tube? before.pose.radius before.pose.tension = .ok solid? →
      Breaks before (before.withTube solid?).startLine

/-- The turtle behind a command. -/
inductive Performs (before : Turtle) : Command → Turtle → Prop
  | rotate {axis : Axis} {sign : Sign} {angle : Option Float} {frame : Frame Float} :
      before.pose.frame.rotate? axis (signedAngle sign (angle.getD before.defaults.angle)) =
        .ok frame →
      Performs before (.rotate axis sign angle) (before.withFrame frame)
  | forward {length : Option Float} :
      Performs before (.forward length) (before.move (length.getD before.defaults.length))
  | startLine : Performs before .startLine before.startLine
  | endLine {after : Turtle} : Ends before after → Performs before .endLine after
  | line {length startRadius endRadius : Option Float} :
      Performs before (.line length startRadius endRadius)
        ((before.emit "line" (.segment (length.getD before.defaults.length)
          (startRadius.getD before.pose.radius) (endRadius.getD before.pose.radius) 32)).move
          (length.getD before.defaults.length))
  | push {between : Turtle} : Breaks before between → Performs before .push between.save
  | pop {between : Turtle} : Breaks before between → Performs before .pop between.restore
  | sphere {radius width height : Option Float} :
      Performs before (.sphere radius width height)
        (before.emit "sphere" (.sphere (radius.getD (before.defaults.size / 2))
          (segmentCount width 12) (segmentCount height 6)))
  | box {width height depth : Option Float} :
      Performs before (.box width height depth)
        (before.emit "box" (.box (width.getD before.defaults.size)
          (height.getD before.defaults.size) (depth.getD before.defaults.size)))
  | cube {side : Option Float} :
      Performs before (.cube side)
        (before.emit "box" (.box (side.getD before.defaults.size)
          (side.getD before.defaults.size) (side.getD before.defaults.size)))
  | cone {radius height count : Option Float} :
      Performs before (.cone radius height count)
        (before.emit "cone" (.cone (radius.getD (before.defaults.size / 2))
          (height.getD before.defaults.size) (segmentCount count 32)))
  | radius {radius : Option Float} :
      Performs before (.radius radius)
        { before with
          pose := { before.pose with radius := radius.getD before.defaults.radius } }
  | tension {tension : Option Float} :
      Performs before (.tension tension)
        { before with pose := { before.pose with tension := tension.getD standardTension } }
  | material {parameters : List Float} :
      Performs before (.material parameters) (before.setMaterial parameters)

/-! What the commands leave as it is. -/

section

variable (turtle : Turtle)

@[simp] theorem withFrame_stack (frame : Frame Float) :
    (turtle.withFrame frame).stack = turtle.stack := rfl

@[simp] theorem move_stack (length : Float) : (turtle.move length).stack = turtle.stack := rfl

@[simp] theorem emit_stack (kind : String) (solid : Solid Float) :
    (turtle.emit kind solid).stack = turtle.stack := rfl

@[simp] theorem setMaterial_stack (parameters : List Float) :
    (turtle.setMaterial parameters).stack = turtle.stack := rfl

@[simp] theorem startLine_stack : turtle.startLine.stack = turtle.stack := by
  unfold startLine
  split <;> rfl

@[simp] theorem startLine_pose : turtle.startLine.pose = turtle.pose := by
  unfold startLine
  split <;> rfl

@[simp] theorem withTube_stack (solid? : Option (Solid Float)) :
    (turtle.withTube solid?).stack = turtle.stack := by
  cases solid? <;> rfl

@[simp] theorem withTube_pose (solid? : Option (Solid Float)) :
    (turtle.withTube solid?).pose = turtle.pose := by
  cases solid? <;> rfl

end

/-! Ending and breaking a line. -/

theorem run_endLine_idle {before : Turtle} (idle : before.stroke? = none) :
    endLine.run before = .ok ⟨⟩ before := by
  rw [endLine, EStateM.run_bind, EStateM.run_get]
  dsimp only
  rw [idle]
  rfl

theorem run_endLine_drawing {before : Turtle} {stroke : Stroke}
    (drawing : before.stroke? = some stroke) :
    endLine.run before =
      match stroke.tube? before.pose.radius before.pose.tension with
      | .ok solid? => .ok ⟨⟩ (before.withTube solid?)
      | .error error => .error (.curve error) { before with stroke? := none } := by
  -- `simp` would look into the tube; the equations are rewritten one by one instead.
  rw [endLine, EStateM.run_bind, EStateM.run_get]
  dsimp only
  rw [drawing]
  dsimp only
  rw [EStateM.run_bind, EStateM.run_set]
  dsimp only
  generalize stroke.tube? before.pose.radius before.pose.tension = made
  rcases made with error | solid?
  · rfl
  · cases solid? <;> rfl

theorem ends_of_run {before after : Turtle} (run : endLine.run before = .ok ⟨⟩ after) :
    Ends before after := by
  cases drawing : before.stroke? with
  | none =>
      rw [run_endLine_idle drawing] at run
      cases run
      exact .idle drawing
  | some stroke =>
      rw [run_endLine_drawing drawing] at run
      split at run
      · next solid? made =>
          cases run
          exact .drawing drawing made
      · cases run

theorem breaks_of_run {before after : Turtle} (run : breakLine.run before = .ok ⟨⟩ after) :
    Breaks before after := by
  rw [breakLine, EStateM.run_bind, EStateM.run_get] at run
  dsimp only at run
  cases drawing : before.stroke? with
  | none =>
      rw [isDrawing, drawing, Option.isSome_none, if_neg Bool.false_ne_true] at run
      cases run
      exact .idle drawing
  | some stroke =>
      rw [isDrawing, drawing, Option.isSome_some, if_pos rfl] at run
      rcases run_bind_eq_ok_iff.mp run with ⟨⟨⟩, ended, runEnd, started⟩
      cases started
      rw [run_endLine_drawing drawing] at runEnd
      split at runEnd
      · next solid? made =>
          cases runEnd
          exact .drawing drawing made
      · cases runEnd

@[simp] theorem Breaks.stack {before after : Turtle} (breaks : Breaks before after) :
    after.stack = before.stack := by
  cases breaks <;> simp

@[simp] theorem Breaks.pose {before after : Turtle} (breaks : Breaks before after) :
    after.pose = before.pose := by
  cases breaks <;> simp

/-! Commands and symbols. -/

theorem performs_of_run {command : Command} {before after : Turtle}
    (run : (perform command).run before = .ok ⟨⟩ after) : Performs before command after := by
  rw [perform, EStateM.run_bind, EStateM.run_get] at run
  dsimp only at run
  cases command with
  | rotate axis sign angle =>
      dsimp only at run
      rw [rotate, EStateM.run_bind, EStateM.run_get] at run
      dsimp only at run
      split at run
      · next frame turned =>
          cases run
          exact .rotate turned
      · cases run
  | forward length => cases run; exact .forward
  | startLine => cases run; exact .startLine
  | endLine => exact .endLine (ends_of_run run)
  | line length startRadius endRadius => cases run; exact .line
  | push =>
      rcases run_bind_eq_ok_iff.mp run with ⟨⟨⟩, between, broken, saved⟩
      cases saved
      exact .push (breaks_of_run broken)
  | pop =>
      rcases run_bind_eq_ok_iff.mp run with ⟨⟨⟩, between, broken, restored⟩
      cases restored
      exact .pop (breaks_of_run broken)
  | sphere radius width height => cases run; exact .sphere
  | box width height depth => cases run; exact .box
  | cube side => cases run; exact .cube
  | cone radius height count => cases run; exact .cone
  | radius radius => cases run; exact .radius
  | tension tension => cases run; exact .tension
  | material parameters => cases run; exact .material

theorem performs_of_obey {symbol : Symbol} {command : Command}
    (reads : Command.ofSymbol? symbol = some command) {before after : Turtle}
    (run : (obey symbol).run before = .ok ⟨⟩ after) : Performs before command after := by
  rw [obey, reads] at run
  exact performs_of_run run

theorem eq_of_obey_unknown {symbol : Symbol} (unknown : Command.ofSymbol? symbol = none)
    {before after : Turtle} (run : (obey symbol).run before = .ok ⟨⟩ after) : after = before := by
  rw [obey, unknown] at run
  cases run
  rfl

/-- The turtle behind a motion, be it completed or not. -/
def behind (turtle : Turtle) (motion : Motion α) : Turtle :=
  stateOf (motion.run turtle)

/-- A generation is the run of its commands from a clean state. -/
theorem run_of_generate {commands : List Symbol} {settings : List (String × Float)}
    {before after : Turtle} {generation : Generation}
    (run : (generate commands settings).run before = .ok generation after) :
    ∃ last, (commands.forM obey).run (before.setDefaults settings).reset = .ok ⟨⟩ last ∧
      (after.sceneOf generation).meshes = last.scene.meshes := by
  rcases run_bind_eq_ok_iff.mp run with ⟨⟨⟩, clean, cleaned, run⟩
  cases cleaned
  rcases run_bind_eq_ok_iff.mp run with ⟨⟨⟩, last, runCommands, run⟩
  cases run
  refine ⟨last, runCommands, ?_⟩
  simp [sceneOf]

end Turtle

end GrowthGrammar
