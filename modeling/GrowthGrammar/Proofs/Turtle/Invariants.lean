import GrowthGrammar.Proofs.Turtle.Shapes

/-!
# Invariants of turtles

What holds of a turtle with a fresh scene, and is kept by each change that a use can make, holds of
whatever becomes of a turtle.
-/

namespace GrowthGrammar

open Fallible

namespace Turtle

/-- The changes that a turtle can go through keep it. A command that fails makes none of them but
the loss of a line. -/
structure IsInvariant (holds : Turtle → Prop) : Prop where
  start (defaults : Defaults) (earlier : Array Scene) : holds (start defaults earlier)
  setDefaults {turtle : Turtle} (values : List (String × Float)) :
    holds turtle → holds (turtle.setDefaults values)
  performs {command : Command} {before after : Turtle} :
    Performs before command after → holds before → holds after
  rotates {turtle : Turtle} {frame : Frame Float} {axis : String} {degrees : Float} :
    turtle.pose.frame.rotateNamed? axis degrees = .ok frame → holds turtle →
      holds (turtle.withFrame frame)
  losesLine {turtle : Turtle} : holds turtle → holds { turtle with stroke? := none }
  release {turtle : Turtle} (generation : Generation) :
    holds turtle → holds (turtle.release generation)

namespace IsInvariant

variable {holds : Turtle → Prop} {turtle : Turtle} (invariant : IsInvariant holds)

include invariant

theorem drops {before after : Turtle} (drops : Drops before after) (kept : holds before) :
    holds after := by
  rcases drops with rfl | rfl
  · exact kept
  · exact invariant.losesLine kept

theorem perform (command : Command) (kept : holds turtle) :
    holds (turtle.behind (perform command)) := by
  rw [behind]
  cases run : (Turtle.perform command).run turtle with
  | ok value after => exact invariant.performs (performs_of_run run) kept
  | error error after => exact invariant.drops (drops_of_perform run) kept

theorem obey (symbol : Symbol) (kept : holds turtle) : holds (turtle.behind (obey symbol)) := by
  rw [Turtle.obey]
  cases Command.ofSymbol? symbol with
  | none => exact kept
  | some command => exact invariant.perform command kept

theorem word (word : List Symbol) (kept : holds turtle) :
    holds (turtle.behind (word.forM Turtle.obey)) := by
  induction word generalizing turtle with
  | nil => exact kept
  | cons symbol word induction =>
      have next_kept := invariant.obey symbol kept
      change holds (stateOf ((Turtle.obey symbol >>= fun _ => word.forM Turtle.obey).run turtle))
      rw [EStateM.run_bind]
      rw [behind] at next_kept
      cases run : (Turtle.obey symbol).run turtle with
      | ok value next =>
          rw [run] at next_kept
          exact induction next_kept
      | error error next =>
          rw [run] at next_kept
          exact next_kept

theorem generate (commands : List Symbol) (settings : List (String × Float)) :
    holds (turtle.behind (generate commands settings)) := by
  have clean : holds (turtle.setDefaults settings).reset := invariant.start _ _
  have word_kept := invariant.word commands clean
  rw [behind] at word_kept ⊢
  rw [run_generate]
  cases run : (commands.forM Turtle.obey).run (turtle.setDefaults settings).reset with
  | ok value last =>
      rw [run] at word_kept
      exact invariant.losesLine word_kept
  | error error after =>
      rw [run] at word_kept
      exact word_kept

theorem rotateNamed (axis : String) (angle : Option Float) (kept : holds turtle) :
    holds (turtle.behind (rotateNamed axis angle)) := by
  rw [behind, Turtle.rotateNamed, EStateM.run_bind, EStateM.run_get]
  dsimp only
  split
  · next frame rotated => exact invariant.rotates rotated kept
  · exact kept

theorem use (use : Use) (kept : holds turtle) : holds (turtle.use use) := by
  cases use with
  | obey symbol => exact invariant.obey symbol kept
  | perform command => exact invariant.perform command kept
  | rotate axis angle => exact invariant.rotateNamed axis angle kept
  | reset => exact invariant.start _ _
  | setDefaults values => exact invariant.setDefaults values kept
  | generate commands settings => exact invariant.generate commands settings
  | release generation => exact invariant.release generation kept

/-- An invariant holds of a turtle whatever was done with it, be it completed or not. -/
theorem of_reached {initial : List (String × Float)} (reached : turtle.Reached initial) :
    holds turtle := by
  induction reached with
  | new => exact invariant.start _ _
  | use use _ kept => exact invariant.use use kept

end IsInvariant

end Turtle

end GrowthGrammar
