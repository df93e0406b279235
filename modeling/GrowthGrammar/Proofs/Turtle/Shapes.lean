import GrowthGrammar.Proofs.Geometry.Solids
import GrowthGrammar.Proofs.Turtle.History
import GrowthGrammar.Proofs.Turtle.Lines

/-!
# Shapes of meshes

Whatever a turtle is told to do, and by whatever numbers, each of its meshes consists of triangles,
and its kind bounds how many there are.
-/

namespace GrowthGrammar

open Fallible

/-- A turtle that has come from a new one by some uses. -/
inductive Turtle.Reached (initial : List (String × Float)) : Turtle → Prop
  | new : Reached initial (new (Defaults.standard.setNamed initial))
  | use {turtle : Turtle} (use : Use) : Reached initial turtle → Reached initial (turtle.use use)

/-- A mesh consists of as many vertices and triangles as its kind says, by numbers of segments that
have bounds. Those of a tube come from the number of points that a turtle has collected for it. -/
inductive Mesh.Shaped (initial : List (String × Float)) (mesh : Mesh) : Prop
  | sphere {width height : Nat} : mesh.kind = "sphere" → 3 ≤ width ∧ width ≤ 256 →
      2 ≤ height ∧ height ≤ 256 →
      mesh.solid.Consists ((width + 1) * (height + 1)) (2 * width * (height - 1)) →
      Shaped initial mesh
  | cylinder {count : Nat} : mesh.kind = "line" ∨ mesh.kind = "cone" → 3 ≤ count ∧ count ≤ 256 →
      mesh.solid.Consists (2 * count + 2) (4 * count) → Shaped initial mesh
  | box : mesh.kind = "box" → mesh.solid.Consists 8 12 → Shaped initial mesh
  | tube {turtle : Turtle} {stroke : Stroke} : mesh.kind = "tube" →
      turtle.Reached initial → turtle.TubeOf stroke mesh → 2 ≤ stroke.points.size →
      mesh.solid.Consists (9 * (5 * stroke.points.size + 1)) (80 * stroke.points.size) →
      Shaped initial mesh

namespace Turtle

/-! Numbers of segments. -/

theorem segmentCount_le {standard : Int} (small : standard ≤ 256) (count : Option Float) :
    segmentCount count standard ≤ 256 := by
  unfold segmentCount
  split
  · exact Int.min_le_right _ _
  · exact small

theorem segments_segmentCount {least : Nat} {standard : Int} (few : least ≤ 256)
    (small : standard ≤ 256) (count : Option Float) :
    least ≤ Solid.segments least (segmentCount count standard) ∧
      Solid.segments least (segmentCount count standard) ≤ 256 :=
  ⟨Solid.le_segments _ _, Solid.segments_le few (segmentCount_le small count)⟩

/-! One command. -/

def Shaped (initial : List (String × Float)) (turtle : Turtle) : Prop :=
  ∀ mesh ∈ turtle.scene.meshes, mesh.Shaped initial

section

variable {initial : List (String × Float)} {before after : Turtle}

theorem shaped_of_scene_eq (shaped : before.Shaped initial) (same : after.scene = before.scene) :
    after.Shaped initial := by
  rw [Shaped, same]
  exact shaped

theorem Shaped.emit (shaped : before.Shaped initial) {kind : String} {solid : Solid Float}
    (made : ∀ mesh : Mesh, mesh.kind = kind → mesh.solid = solid → mesh.Shaped initial) :
    (before.emit kind solid).Shaped initial := by
  intro mesh member
  rcases Array.mem_push.mp member with old | rfl
  · exact shaped mesh old
  · exact made _ rfl rfl

theorem Shaped.withTube (shaped : before.Shaped initial) (reached : before.Reached initial)
    {stroke : Stroke} {solid? : Option (Solid Float)} (drawing : before.stroke? = some stroke)
    (made : stroke.tube? before.pose.radius before.pose.tension = .ok solid?) :
    (before.withTube solid?).Shaped initial := by
  cases solid? with
  | none => exact shaped
  | some solid =>
      intro mesh member
      rcases Array.mem_push.mp member with old | rfl
      · exact shaped mesh old
      · rcases stroke.consists_tube? made with ⟨several, consists⟩
        exact .tube rfl reached ⟨drawing, made⟩ several consists

theorem Ends.shaped (ends : Ends before after) (reached : before.Reached initial)
    (shaped : before.Shaped initial) : after.Shaped initial := by
  cases ends with
  | idle => exact shaped
  | drawing drawing made => exact shaped.withTube reached drawing made

theorem Breaks.shaped (breaks : Breaks before after) (reached : before.Reached initial)
    (shaped : before.Shaped initial) : after.Shaped initial := by
  cases breaks with
  | idle => exact shaped
  | drawing drawing made =>
      exact shaped_of_scene_eq (shaped.withTube reached drawing made) (startLine_scene _)

theorem Performs.shaped {command : Command} (performs : Performs before command after)
    (reached : before.Reached initial) (shaped : before.Shaped initial) :
    after.Shaped initial := by
  cases performs with
  | rotate | forward | radius | tension | material => exact shaped
  | startLine => exact shaped_of_scene_eq shaped (startLine_scene _)
  | endLine ends => exact ends.shaped reached shaped
  | push breaks =>
      have broken := breaks.shaped reached shaped
      exact broken
  | pop breaks => exact shaped_of_scene_eq (breaks.shaped reached shaped) (restore_scene _)
  | line =>
      refine Shaped.emit shaped fun mesh kind solid => ?_
      have bounded : 3 ≤ Solid.segments 3 32 ∧ Solid.segments 3 32 ≤ 256 := by decide
      exact .cylinder (.inl kind) bounded (solid ▸ Solid.consists_cylinder _ _ _ _ 32)
  | sphere =>
      refine shaped.emit fun mesh kind solid => ?_
      exact .sphere kind (segments_segmentCount (by decide) (by decide) _)
        (segments_segmentCount (by decide) (by decide) _) (solid ▸ Solid.consists_sphere _ _ _)
  | box | cube => exact shaped.emit fun mesh kind solid => .box kind (solid ▸ Solid.consists_box ..)
  | @cone radius height count =>
      refine shaped.emit fun mesh kind solid => ?_
      have bounded : 3 ≤ Solid.segments 3 (segmentCount count 32) ∧
          Solid.segments 3 (segmentCount count 32) ≤ 256 :=
        segments_segmentCount (by decide) (by decide) count
      refine .cylinder (.inr kind) bounded ?_
      rw [solid]
      exact Solid.consists_cylinder _ _ _ _ (segmentCount count 32)

/-! Uses of a turtle. -/

theorem shaped_of_perform (command : Command) (reached : before.Reached initial)
    (shaped : before.Shaped initial) : (before.behind (perform command)).Shaped initial := by
  rw [behind]
  cases run : (perform command).run before with
  | ok value after => exact (performs_of_run run).shaped reached shaped
  | error error after =>
      rcases drops_of_perform run with rfl | rfl
      · exact shaped
      · exact shaped

theorem shaped_of_obey (symbol : Symbol) (reached : before.Reached initial)
    (shaped : before.Shaped initial) : (before.behind (obey symbol)).Shaped initial := by
  rw [obey]
  cases Command.ofSymbol? symbol with
  | none => exact shaped
  | some command => exact shaped_of_perform command reached shaped

/-- Between the commands of a word the turtle is one that is reached by giving it each of them. -/
theorem shaped_of_word (word : List Symbol) (reached : before.Reached initial)
    (shaped : before.Shaped initial) : (before.behind (word.forM obey)).Shaped initial := by
  induction word generalizing before with
  | nil => exact shaped
  | cons symbol word induction =>
      have next_reached := reached.use (.obey symbol)
      have next_shaped := shaped_of_obey symbol reached shaped
      change (stateOf ((obey symbol >>= fun _ => word.forM obey).run before)).Shaped initial
      rw [EStateM.run_bind]
      cases run : (obey symbol).run before with
      | ok value next =>
          rw [use, behind, run] at next_reached
          rw [behind, run] at next_shaped
          exact induction next_reached next_shaped
      | error error next =>
          rw [behind, run] at next_shaped
          exact next_shaped

theorem shaped_reset (turtle : Turtle) : turtle.reset.Shaped initial :=
  fun _ member => absurd member (Array.not_mem_empty _)

theorem shaped_of_generate (commands : List Symbol) (settings : List (String × Float))
    (reached : before.Reached initial) :
    (before.behind (generate commands settings)).Shaped initial := by
  have clean : (before.setDefaults settings).reset.Reached initial :=
    (reached.use (.setDefaults settings)).use .reset
  have word := shaped_of_word commands clean (shaped_reset _)
  rw [behind] at word ⊢
  rw [run_generate]
  cases run : (commands.forM obey).run (before.setDefaults settings).reset with
  | ok value last =>
      rw [run] at word
      exact word
  | error error after =>
      rw [run] at word
      exact word

theorem shaped_of_mem_generation {commands : List Symbol} {settings : List (String × Float)}
    {generation : Generation} (reached : before.Reached initial)
    (run : (generate commands settings).run before = .ok generation after) :
    ∀ mesh ∈ (after.sceneOf generation).meshes, mesh.Shaped initial := by
  rcases run_of_generate run with ⟨last, runCommands, meshes⟩
  have clean : (before.setDefaults settings).reset.Reached initial :=
    (reached.use (.setDefaults settings)).use .reset
  have shaped := shaped_of_word commands clean (shaped_reset _)
  rw [behind, runCommands] at shaped
  rw [meshes]
  exact shaped

theorem shaped_of_rotateNamed (axis : String) (angle : Option Float)
    (shaped : before.Shaped initial) : (before.behind (rotateNamed axis angle)).Shaped initial := by
  rw [behind, rotateNamed, EStateM.run_bind, EStateM.run_get]
  dsimp only
  split <;> exact shaped

theorem shaped_release (generation : Generation) (shaped : before.Shaped initial) :
    (before.release generation).Shaped initial := by
  unfold release
  split
  · exact shaped
  · exact fun _ member => absurd member (Array.not_mem_empty _)

end

/-- Whatever was done with a turtle, be it completed or not, each of its meshes consists of
triangles between its vertices, and is as large as its kind allows. -/
theorem meshes_shaped {initial : List (String × Float)} {turtle : Turtle}
    (reached : turtle.Reached initial) : ∀ mesh ∈ turtle.scene.meshes, mesh.Shaped initial := by
  induction reached with
  | new => exact fun _ member => absurd member (Array.not_mem_empty _)
  | @use before use reached shaped =>
      cases use with
      | obey symbol => exact shaped_of_obey symbol reached shaped
      | perform command => exact shaped_of_perform command reached shaped
      | rotate axis angle => exact shaped_of_rotateNamed axis angle shaped
      | reset => exact shaped_reset before
      | setDefaults values => exact shaped
      | generate commands settings => exact shaped_of_generate commands settings reached
      | release generation => exact shaped_release generation shaped

/-- A sphere with as many segments around as there are by default, and as many from pole to pole as
there can be. -/
theorem meshes_shaped_of_sphere :
    let sphere : Use := .perform (.sphere (some (-1)) (some (1 / 0)) (some 1e300))
    let turtle := (new (Defaults.standard.setNamed [])).use sphere
    turtle.Reached [] ∧ ∃ mesh ∈ turtle.scene.meshes, mesh.kind = "sphere" ∧
      mesh.solid.vertices.length = (12 + 1) * (256 + 1) ∧ mesh.Shaped [] := by
  intro sphere turtle
  have reached : turtle.Reached [] := .use sphere .new
  refine ⟨reached, _, Array.mem_push_self, rfl, ?_, ?_⟩
  · decide +kernel
  · exact meshes_shaped reached _ Array.mem_push_self

end Turtle

end GrowthGrammar
