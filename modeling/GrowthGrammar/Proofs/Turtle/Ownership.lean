import GrowthGrammar.Proofs.Scene.Identity
import GrowthGrammar.Proofs.Turtle.Steps

/-!
# Materials of a run

Every material that a turtle has at hand is held by the arena of its scene at the place that is its
identity. One identity therefore stands for one material, in all meshes of a generation.
-/

namespace GrowthGrammar

open Fallible

namespace Turtle

/-- The materials that a turtle works with, has saved, or has left on its meshes. -/
def materials (turtle : Turtle) : List (Tracked Material) :=
  turtle.pose.material :: turtle.stack.map Pose.material ++
    turtle.scene.meshes.toList.map Mesh.material

/-- The scene holds the materials of the turtle. -/
def Equipped (turtle : Turtle) : Prop :=
  ∀ material ∈ turtle.materials, turtle.scene.Holds material

variable {before after : Turtle}

/-- What is known stays known in the same scene. -/
theorem Equipped.of_subset (equipped : Equipped before) (scene : after.scene = before.scene)
    (known : after.materials ⊆ before.materials) : Equipped after := by
  intro material member
  rw [scene]
  exact equipped material (known member)

theorem materials_emitAt (turtle : Turtle) (kind : String) (solid : Solid Float)
    (frame : Frame Float) :
    (turtle.emitAt kind solid frame).materials = turtle.materials ++ [turtle.pose.material] := by
  simp [materials, emitAt, Scene.addMesh]

theorem Equipped.emitAt (equipped : Equipped before) (kind : String) (solid : Solid Float)
    (frame : Frame Float) : Equipped (before.emitAt kind solid frame) := by
  intro material member
  rw [materials_emitAt, List.mem_append, List.mem_singleton] at member
  have known : material ∈ before.materials := by
    rcases member with known | rfl
    · exact known
    · exact List.mem_cons_self
  exact (equipped material known).track _ _

theorem Equipped.setMaterial (equipped : Equipped before) (parameters : List Float) :
    Equipped (before.setMaterial parameters) := by
  intro material member
  rcases List.mem_cons.mp member with rfl | known
  · exact before.scene.holds_addMaterial _
  · exact (equipped material (List.mem_cons_of_mem _ known)).track _ _

theorem Equipped.startLine (equipped : Equipped before) : Equipped before.startLine := by
  unfold Turtle.startLine
  split
  · exact equipped
  · exact equipped.of_subset rfl fun _ => id

theorem Equipped.withTube (equipped : Equipped before) (solid? : Option (Solid Float)) :
    Equipped (before.withTube solid?) := by
  have ended : Equipped { before with stroke? := none } := equipped.of_subset rfl fun _ => id
  cases solid? with
  | none => exact ended
  | some solid => exact ended.emitAt "tube" solid .identity

theorem Equipped.ends (equipped : Equipped before) (ends : Ends before after) :
    Equipped after := by
  cases ends with
  | idle => exact equipped
  | drawing => exact equipped.withTube _

theorem Equipped.breaks (equipped : Equipped before) (breaks : Breaks before after) :
    Equipped after := by
  cases breaks with
  | idle => exact equipped
  | drawing => exact (equipped.withTube _).startLine

theorem Equipped.save (equipped : Equipped before) : Equipped before.save := by
  refine equipped.of_subset rfl fun material member => ?_
  rcases List.mem_cons.mp member with rfl | known
  · exact List.mem_cons_self
  · exact known

theorem Equipped.restore (equipped : Equipped before) : Equipped before.restore := by
  unfold Turtle.restore
  split
  · exact equipped
  · next pose stack saved =>
      refine equipped.of_subset rfl fun material known => ?_
      rw [materials, saved]
      exact List.mem_cons_of_mem before.pose.material known

theorem Equipped.performs {command : Command} (equipped : Equipped before)
    (performs : Performs before command after) : Equipped after := by
  cases performs with
  | startLine => exact equipped.startLine
  | endLine ends => exact equipped.ends ends
  | line => exact (equipped.emitAt "line" _ _).of_subset rfl fun _ => id
  | push breaks => exact (equipped.breaks breaks).save
  | pop breaks => exact (equipped.breaks breaks).restore
  | sphere => exact equipped.emitAt "sphere" _ _
  | box => exact equipped.emitAt "box" _ _
  | cube => exact equipped.emitAt "box" _ _
  | cone => exact equipped.emitAt "cone" _ _
  | material => exact equipped.setMaterial _
  | rotate | forward | radius | tension => exact equipped.of_subset rfl fun _ => id

theorem Equipped.run {word : List Symbol} (equipped : Equipped before)
    (run : (word.forM obey).run before = .ok ⟨⟩ after) : Equipped after := by
  induction word generalizing before with
  | nil =>
      cases run
      exact equipped
  | cons symbol word induction =>
      rcases run_forM_cons_eq_ok_iff.mp run with ⟨between, first, rest⟩
      refine induction ?_ rest
      cases reads : Command.ofSymbol? symbol with
      | none =>
          rw [eq_of_obey_unknown reads first]
          exact equipped
      | some command => exact equipped.performs (performs_of_obey reads first)

theorem equipped_reset (turtle : Turtle) : Equipped turtle.reset := by
  intro material member
  rw [List.mem_singleton.mp member]
  exact Scene.empty.holds_addMaterial _

/-- In a generation, an identity stands for one material. -/
theorem generate_identified {commands : List Symbol} {settings : List (String × Float)}
    {generation : Generation}
    (run : (generate commands settings).run before = .ok generation after) :
    Identified (after.sceneOf generation).meshes.toList := by
  rcases run_of_generate run with ⟨last, runCommands, meshes⟩
  have equipped := (equipped_reset (before.setDefaults settings)).run runCommands
  rw [meshes]
  apply last.scene.identified_of_holds
  intro mesh member
  apply equipped
  exact List.mem_append_right _ (List.mem_map_of_mem member)

end Turtle

end GrowthGrammar
