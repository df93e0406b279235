import GrowthGrammar.Proofs.Geometry.Hashing
import GrowthGrammar.Proofs.Turtle.Invariants

/-!
# Frames of turtles

Some steps have led to each frame that a turtle keeps: to its own one, to those that it has saved,
and to those of its meshes. So two of them that are equal are the same, and are hashed alike. Other
frames that are equal can have hashes of their own.
-/

namespace GrowthGrammar

namespace Frame

section

variable {frame turned : Frame Float}

theorem Reached.rotate {axis : Axis} {degrees : Float} (reached : frame.Reached)
    (rotated : frame.rotate? axis degrees = .ok turned) : turned.Reached := by
  unfold rotate? at rotated
  split at rotated
  · cases rotated
    exact reached.step (.rotate axis degrees)
  · cases rotated

theorem Reached.rotateNamed {name : String} {degrees : Float} (reached : frame.Reached)
    (rotated : frame.rotateNamed? name degrees = .ok turned) : turned.Reached := by
  unfold rotateNamed? at rotated
  split at rotated
  · exact reached.rotate rotated
  · cases rotated

end

end Frame

namespace Turtle

/-- The frames that a turtle keeps. -/
def frames (turtle : Turtle) : List (Frame Float) :=
  turtle.pose.frame :: turtle.stack.map Pose.frame ++ turtle.scene.meshes.toList.map Mesh.frame

/-- Some steps have led to each of the frames. -/
structure Framed (turtle : Turtle) : Prop where
  pose : turtle.pose.frame.Reached
  stack : ∀ pose ∈ turtle.stack, pose.frame.Reached
  meshes : ∀ mesh ∈ turtle.scene.meshes, mesh.frame.Reached

namespace Framed

variable {turtle before after : Turtle}

theorem reached_of_mem (framed : turtle.Framed) {frame : Frame Float}
    (member : frame ∈ turtle.frames) : frame.Reached := by
  simp only [frames, List.cons_append, List.mem_cons, List.mem_append, List.mem_map,
    Array.mem_toList_iff] at member
  rcases member with rfl | ⟨pose, saved, rfl⟩ | ⟨mesh, made, rfl⟩
  · exact framed.pose
  · exact framed.stack pose saved
  · exact framed.meshes mesh made

theorem start (defaults : Defaults) (earlier : Array Scene) : (start defaults earlier).Framed where
  pose := .initial
  stack _ member := absurd member List.not_mem_nil
  meshes _ member := absurd member (Array.not_mem_empty _)

theorem withFrame (framed : turtle.Framed) {frame : Frame Float} (reached : frame.Reached) :
    (turtle.withFrame frame).Framed where
  pose := reached
  stack := framed.stack
  meshes := framed.meshes

theorem move (framed : turtle.Framed) (length : Float) : (turtle.move length).Framed where
  pose := framed.pose.step (.translate length)
  stack := framed.stack
  meshes := framed.meshes

theorem emitAt (framed : turtle.Framed) (kind : String) (solid : Solid Float) {frame : Frame Float}
    (reached : frame.Reached) : (turtle.emitAt kind solid frame).Framed where
  pose := framed.pose
  stack := framed.stack
  meshes mesh member := by
    rcases Array.mem_push.mp member with old | rfl
    · exact framed.meshes mesh old
    · exact reached

theorem emit (framed : turtle.Framed) (kind : String) (solid : Solid Float) :
    (turtle.emit kind solid).Framed :=
  framed.emitAt kind solid framed.pose

theorem losesLine (framed : turtle.Framed) :
    Framed { turtle with stroke? := none } where
  pose := framed.pose
  stack := framed.stack
  meshes := framed.meshes

theorem withTube (framed : turtle.Framed) (solid? : Option (Solid Float)) :
    (turtle.withTube solid?).Framed := by
  cases solid? with
  | none => exact framed.losesLine
  | some solid => exact framed.losesLine.emitAt "tube" solid .identity

theorem startLine (framed : turtle.Framed) : turtle.startLine.Framed where
  pose := turtle.startLine_pose ▸ framed.pose
  stack := turtle.startLine_stack ▸ framed.stack
  meshes := startLine_scene turtle ▸ framed.meshes

theorem ends (framed : before.Framed) (ends : Ends before after) : after.Framed := by
  cases ends with
  | idle => exact framed
  | drawing => exact framed.withTube _

theorem breaks (framed : before.Framed) (breaks : Breaks before after) : after.Framed := by
  cases breaks with
  | idle => exact framed
  | drawing => exact (framed.withTube _).startLine

theorem save (framed : turtle.Framed) : turtle.save.Framed where
  pose := framed.pose
  stack := List.forall_mem_cons.mpr ⟨framed.pose, framed.stack⟩
  meshes := framed.meshes

theorem restore (framed : turtle.Framed) : turtle.restore.Framed := by
  have stack := framed.stack
  unfold Turtle.restore
  split
  · exact framed
  · next pose rest saved =>
      rw [saved, List.forall_mem_cons] at stack
      exact ⟨stack.1, stack.2, framed.meshes⟩

theorem performs {command : Command} (framed : before.Framed)
    (performs : Performs before command after) : after.Framed := by
  cases performs with
  | rotate rotated => exact framed.withFrame (framed.pose.rotate rotated)
  | forward => exact framed.move _
  | startLine => exact framed.startLine
  | endLine ends => exact framed.ends ends
  | line => exact (framed.emit _ _).move _
  | push breaks => exact (framed.breaks breaks).save
  | pop breaks => exact (framed.breaks breaks).restore
  | sphere | box | cube | cone => exact framed.emit _ _
  | radius | tension | material => exact ⟨framed.pose, framed.stack, framed.meshes⟩

theorem release (framed : turtle.Framed) (generation : Generation) :
    (turtle.release generation).Framed := by
  unfold Turtle.release
  split
  · exact ⟨framed.pose, framed.stack, framed.meshes⟩
  · exact ⟨framed.pose, framed.stack, fun _ member => absurd member (Array.not_mem_empty _)⟩

end Framed

theorem isInvariant_framed : IsInvariant Framed where
  start := Framed.start
  setDefaults _ framed := ⟨framed.pose, framed.stack, framed.meshes⟩
  performs performs framed := framed.performs performs
  rotates rotated framed := framed.withFrame (framed.pose.rotateNamed rotated)
  losesLine := Framed.losesLine
  release generation framed := framed.release generation

/-- Whatever was done with two turtles, a frame of the one and a frame of the other that are equal
are the same. So no hash tells them apart. -/
theorem eq_of_mem_frames_of_beq {initial settings : List (String × Float)} {first second : Turtle}
    (firstReached : first.Reached initial) (secondReached : second.Reached settings)
    {a b : Frame Float} (mine : a ∈ first.frames) (other : b ∈ second.frames)
    (equal : (a == b) = true) : a = b :=
  have framed := isInvariant_framed.of_reached firstReached
  have otherFramed := isInvariant_framed.of_reached secondReached
  (framed.reached_of_mem mine).eq_of_beq (otherFramed.reached_of_mem other) equal

end Turtle

namespace Frame

/-- Equal frames are hashed alike by everything that is computed of their bits, unless somewhere a
zero faces the zero below zero. Then they are told apart by their bits. Between frames on their way
this does not happen, whatever was done with the turtles that keep them. -/
theorem hashed_alike_unless_zeros_differ {a b : Frame Float} (equal : (a == b) = true) :
    ((∀ digest : List UInt64 → UInt64, digest a.bits = digest b.bits) ↔ ¬a.ZerosDiffer b) ∧
      (¬a.ZerosDiffer b → hash a = hash b) ∧
      (a.Reached → b.Reached → ¬a.ZerosDiffer b) ∧
      ∀ (initial settings : List (String × Float)) (first second : Turtle),
        first.Reached initial → second.Reached settings → a ∈ first.frames → b ∈ second.frames →
        ¬a.ZerosDiffer b := by
  refine ⟨⟨fun alike => ?_, fun alike digest => ?_⟩, fun alike => ?_, fun first second => ?_, ?_⟩
  · -- Among the digests is one that knows the bits of the first frame only.
    rw [← bits_eq_iff_of_beq equal]
    by_contra different
    have told := alike fun bits => if bits = a.bits then 0 else 1
    rw [if_pos rfl, if_neg (Ne.symm different)] at told
    exact absurd told (by decide)
  · rw [(bits_eq_iff_of_beq equal).mpr alike]
  · rw [(eq_iff_of_beq equal).mpr alike]
  · exact (eq_iff_of_beq equal).mp (first.eq_of_beq second equal)
  · intro initial settings first second firstReached secondReached mine other
    exact (eq_iff_of_beq equal).mp
      (Turtle.eq_of_mem_frames_of_beq firstReached secondReached mine other equal)

/-- Two ways to one place, and two turtles that took them. -/
theorem hashed_alike_unless_zeros_differ_of_translate :
    let a := ((initial : Frame Float).step (.translate 1)).step (.translate 2)
    let b := (initial : Frame Float).step (.translate 3)
    let turtle := Turtle.new (Defaults.standard.setNamed [])
    let first := (turtle.use (.obey ⟨"f", [1]⟩)).use (.obey ⟨"f", [2]⟩)
    let second := turtle.use (.obey ⟨"f", [3]⟩)
    ((a == b) = true ∧ hash a = hash b) ∧
      (first.Reached [] ∧ second.Reached [] ∧ a ∈ first.frames ∧ b ∈ second.frames ∧
        ¬a.ZerosDiffer b) := by
  intro a b turtle first second
  have equal : (a == b) = true := by decide +kernel
  have stepped : a.Reached ∧ b.Reached := ⟨.step _ (.step _ .initial), .step _ .initial⟩
  have firstReached : first.Reached [] := (Turtle.Reached.new.use _).use _
  have secondReached : second.Reached [] := Turtle.Reached.new.use _
  have mine : a ∈ first.frames := List.mem_cons_self
  have other : b ∈ second.frames := List.mem_cons_self
  rcases hashed_alike_unless_zeros_differ equal with ⟨_, alike, plain, turtles⟩
  exact ⟨⟨equal, alike (plain stepped.1 stepped.2)⟩, firstReached, secondReached, mine, other,
    turtles [] [] first second firstReached secondReached mine other⟩

/-- A frame at the origin, where one of the zeros is below zero. -/
def belowOrigin : Frame Float :=
  { (identity : Frame Float) with position := ⟨-0, 0, 0⟩ }

/-- The two frames at the origin are equal, and a polynomial of their bits tells them apart. -/
theorem hashed_apart_at_origin :
    let digest : List UInt64 → UInt64 := List.foldl (fun code word => 31 * code + word) 7
    (identity == belowOrigin) = true ∧ digest identity.bits ≠ digest belowOrigin.bits := by
  decide +kernel

end Frame

end GrowthGrammar
