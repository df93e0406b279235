import GrowthGrammar.Proofs.Scene.Holdings
import GrowthGrammar.Proofs.Turtle.Brackets
import GrowthGrammar.Proofs.Turtle.Emission

/-!
# Materials of meshes

Which material a mesh is made of is decided by a machine that counts the materials that have been
made. It knows no colors and no frames, only which of these materials is in use, and which are saved.
-/

namespace GrowthGrammar

open Fallible Turtle

/-- Materials are numbered in the order in which they are made. -/
structure Painter where
  ink : Nat
  saved : List Nat
  made : Nat
  deriving DecidableEq, Repr

namespace Painter

/-- The standard material is in use. -/
def start : Painter :=
  { ink := 0, saved := [], made := 1 }

def restored (painter : Painter) : Painter :=
  match painter.saved with
  | [] => painter
  | ink :: saved => { painter with ink, saved }

/-- The machine behind a symbol of the given name. -/
def next (painter : Painter) (name : String) : Painter :=
  match name with
  | "m" => { painter with ink := painter.made, made := painter.made + 1 }
  | "[" => { painter with saved := painter.ink :: painter.saved }
  | "]" => painter.restored
  | _ => painter

def after (painter : Painter) (names : List String) : Painter :=
  names.foldl next painter

theorem after_append (painter : Painter) (first second : List String) :
    painter.after (first ++ second) = (painter.after first).after second :=
  List.foldl_append

end Painter

/-- A kind of mesh with the number of its material. -/
structure Mark where
  kind : String
  ink : Nat
  deriving DecidableEq, Repr

namespace Painter

/-- The marks of the meshes that a word emits. -/
def marks (painter : Painter) (emitter : Emitter) : List String → List Mark
  | [] => []
  | name :: names =>
      ((emitter.emits name).map fun kind => { kind, ink := painter.ink }) ++
        (painter.next name).marks (emitter.next name) names

example : start.marks .start ["l", "[", "m", "sphere", "]", "l", "m", "l"] =
    [⟨"line", 0⟩, ⟨"sphere", 1⟩, ⟨"line", 0⟩, ⟨"line", 2⟩] := by
  decide

theorem marks_append (painter : Painter) (emitter : Emitter) (first second : List String) :
    painter.marks emitter (first ++ second) = painter.marks emitter first ++
      (painter.after first).marks (emitter.after first) second := by
  induction first generalizing painter emitter with
  | nil => rfl
  | cons name first induction =>
      rw [List.cons_append, marks, marks, induction, List.append_assoc]
      rfl

end Painter

/-! ## Materials that commands make -/

namespace Turtle

def palette (turtle : Turtle) : List (Tracked Material) :=
  turtle.scene.arena.materials

section

variable (turtle : Turtle)

@[simp] theorem palette_emitAt (kind : String) (solid : Solid Float) (frame : Frame Float) :
    (turtle.emitAt kind solid frame).palette = turtle.palette :=
  Arena.materials_track_geometry _ solid

@[simp] theorem palette_withTube (solid? : Option (Solid Float)) :
    (turtle.withTube solid?).palette = turtle.palette := by
  cases solid? with
  | none => rfl
  | some solid => exact palette_emitAt _ _ _ _

@[simp] theorem palette_startLine : turtle.startLine.palette = turtle.palette := by
  rw [palette, startLine_scene]
  rfl

@[simp] theorem palette_restore : turtle.restore.palette = turtle.palette := by
  rw [palette, restore_scene]
  rfl

theorem palette_setMaterial (parameters : List Float) :
    (turtle.setMaterial parameters).palette =
      turtle.palette ++ [(turtle.setMaterial parameters).pose.material] :=
  Arena.materials_track_material _ _

end

variable {before after : Turtle}

theorem Ends.palette (ends : Ends before after) : after.palette = before.palette := by
  cases ends with
  | idle => rfl
  | drawing => exact palette_withTube _ _

theorem Breaks.palette (breaks : Breaks before after) : after.palette = before.palette := by
  cases breaks with
  | idle => rfl
  | drawing => rw [palette_startLine, palette_withTube]

theorem Ends.pose (ends : Ends before after) : after.pose = before.pose := by
  cases ends with
  | idle => rfl
  | drawing => exact withTube_pose _ _

/-- Only `m` makes a material, and only it and `]` change the material in use. -/
theorem Performs.paint {command : Command} (performs : Performs before command after)
    (notMaterial : ∀ parameters, command ≠ .material parameters) (notPop : command ≠ .pop) :
    after.palette = before.palette ∧ after.pose.material = before.pose.material := by
  cases performs with
  | startLine => exact ⟨palette_startLine _, congrArg Pose.material (startLine_pose _)⟩
  | endLine ends => exact ⟨ends.palette, congrArg Pose.material ends.pose⟩
  | push breaks => exact ⟨breaks.palette, congrArg Pose.material breaks.pose⟩
  | pop => exact absurd rfl notPop
  | line | sphere | box | cube | cone => exact ⟨palette_emitAt _ _ _ _, rfl⟩
  | material => exact absurd rfl (notMaterial _)
  | rotate | forward | radius | tension => exact ⟨rfl, rfl⟩

theorem setMaterial_of_obey {symbol : Symbol} (paints : symbol.name = "m")
    (run : (obey symbol).run before = .ok ⟨⟩ after) :
    after = before.setMaterial symbol.parameters := by
  have reads : Command.ofSymbol? symbol = some (.material symbol.parameters) := by
    simp [Command.ofSymbol?, paints]
  cases performs_of_obey reads run with
  | material => rfl

/-- A symbol other than `m` makes no material, and only `]` restores another one. -/
theorem paint_of_obey {symbol : Symbol} (notPaint : symbol.name ≠ "m")
    (run : (obey symbol).run before = .ok ⟨⟩ after) :
    after.palette = before.palette ∧
      (symbol.closes = false → after.pose.material = before.pose.material) := by
  cases reads : Command.ofSymbol? symbol with
  | none =>
      rw [eq_of_obey_unknown reads run]
      exact ⟨rfl, fun _ => rfl⟩
  | some command =>
      have performs := performs_of_obey reads run
      by_cases closes : symbol.closes
      · rcases breaks_of_obey_closing closes run with ⟨between, breaks, rfl⟩
        refine ⟨(palette_restore _).trans breaks.palette, fun other => ?_⟩
        exact absurd closes (by simp [other])
      · have painted := performs.paint ?_ ?_
        · exact ⟨painted.1, fun _ => painted.2⟩
        · rintro parameters rfl
          simp only [Command.ofSymbol?] at reads
          split at reads <;> simp_all
        · rintro rfl
          exact closes (Command.ofSymbol?_eq_pop_iff.mp reads)

/-- Behind the commands that are done, the command `m` makes the material. -/
structure Creates (before : Turtle) (done : List Symbol) (paint : Symbol)
    (material : Tracked Material) : Prop where
  paints : paint.name = "m"
  runs : ∃ earlier later, (done.forM obey).run before = .ok ⟨⟩ earlier ∧
    (obey paint).run earlier = .ok ⟨⟩ later ∧ later.pose.material = material

theorem Creates.cons {between : Turtle} {first paint : Symbol} {done : List Symbol}
    {material : Tracked Material} (run : (obey first).run before = .ok ⟨⟩ between)
    (creates : between.Creates done paint material) :
    before.Creates (first :: done) paint material := by
  rcases creates.runs with ⟨earlier, later, runDone, rest⟩
  exact ⟨creates.paints, earlier, later, run_forM_cons_eq_ok_iff.mpr ⟨between, run, runDone⟩, rest⟩

/-- All materials that are added in a run are created by commands of the word. -/
theorem exists_creates {word : List Symbol} (run : (word.forM obey).run before = .ok ⟨⟩ after) :
    ∃ created, after.palette = before.palette ++ created ∧
      ∀ material ∈ created, ∃ done paint rest,
        word = done ++ paint :: rest ∧ before.Creates done paint material := by
  induction word generalizing before with
  | nil =>
      cases run
      exact ⟨[], (List.append_nil _).symm, List.forall_mem_nil _⟩
  | cons symbol word induction =>
      rcases run_forM_cons_eq_ok_iff.mp run with ⟨between, first, rest⟩
      rcases induction rest with ⟨created, palette_eq, creates⟩
      have later : ∀ material ∈ created, ∃ done paint rest,
          symbol :: word = done ++ paint :: rest ∧ before.Creates done paint material := by
        intro material member
        rcases creates material member with ⟨done, paint, others, rfl, made⟩
        exact ⟨symbol :: done, paint, others, rfl, made.cons first⟩
      by_cases paints : symbol.name = "m"
      · have painted := setMaterial_of_obey paints first
        refine ⟨between.pose.material :: created, ?_, List.forall_mem_cons.mpr ⟨?_, later⟩⟩
        · rw [palette_eq, painted, palette_setMaterial, List.append_assoc]
          rfl
        · exact ⟨[], symbol, word, rfl, paints, before, between, rfl, first, rfl⟩
      · exact ⟨created, by rw [palette_eq, (paint_of_obey paints first).1], later⟩

end Turtle

/-! ## Agreement of the machine and the turtle -/

/-- A mesh of the kind of the mark, made of the material that the mark numbers. -/
structure Mark.Carried (palette : List (Tracked Material)) (mark : Mark) (mesh : Mesh) :
    Prop where
  kind : mesh.kind = mark.kind
  material : palette[mark.ink]? = some mesh.material

namespace Painter

/-- The machine and the turtle agree on the material in use and on those that are saved. -/
structure Tracks (painter : Painter) (turtle : Turtle) : Prop where
  ink : turtle.palette[painter.ink]? = some turtle.pose.material
  saved : List.Forall₂ (fun ink pose => turtle.palette[ink]? = some pose.material)
    painter.saved turtle.stack
  made : turtle.palette.length = painter.made

theorem tracks_reset (turtle : Turtle) : start.Tracks turtle.reset :=
  ⟨rfl, .nil, rfl⟩

theorem getElem?_append_of_eq_some {items others : List α} {place : Nat} {item : α}
    (found : items[place]? = some item) : (items ++ others)[place]? = some item := by
  rcases List.getElem?_eq_some_iff.mp found with ⟨inside, _⟩
  rw [List.getElem?_append_left inside, found]

variable {painter : Painter} {before after : Turtle}

theorem Tracks.paint (tracks : painter.Tracks before) (parameters : List Float) :
    (painter.next "m").Tracks (before.setMaterial parameters) := by
  have palette_eq := palette_setMaterial before parameters
  refine ⟨?_, ?_, ?_⟩
  · rw [palette_eq]
    simp [next, ← tracks.made]
  · rw [palette_eq]
    exact tracks.saved.imp fun _ _ found => getElem?_append_of_eq_some found
  · rw [palette_eq, List.length_append, tracks.made]
    rfl

theorem Tracks.save (tracks : painter.Tracks before) : (painter.next "[").Tracks before.save :=
  ⟨tracks.ink, .cons tracks.ink tracks.saved, tracks.made⟩

theorem Tracks.restore (tracks : painter.Tracks before) :
    (painter.next "]").Tracks before.restore := by
  rcases painter with ⟨ink, saved, made⟩
  rcases before with ⟨defaults, earlier, scene, pose, stack, stroke?⟩
  cases tracks.saved with
  | nil => exact tracks
  | cons found others => exact ⟨found, others, tracks.made⟩

/-- What the machine knows of a turtle is its palette, its material in use, and its stack. -/
theorem Tracks.of_eq (tracks : painter.Tracks before) (palette_eq : after.palette = before.palette)
    (material_eq : after.pose.material = before.pose.material)
    (stack_eq : after.stack = before.stack) : painter.Tracks after := by
  refine ⟨?_, ?_, ?_⟩
  · rw [palette_eq, material_eq]
    exact tracks.ink
  · rw [palette_eq, stack_eq]
    exact tracks.saved
  · rw [palette_eq]
    exact tracks.made

theorem Tracks.breaks (tracks : painter.Tracks before) (breaks : Breaks before after) :
    painter.Tracks after :=
  tracks.of_eq breaks.palette (congrArg Pose.material breaks.pose) breaks.stack

/-- One step of the turtle is one step of the machine. -/
theorem Tracks.obey {symbol : Symbol} (tracks : painter.Tracks before)
    (run : (Turtle.obey symbol).run before = .ok ⟨⟩ after) :
    (painter.next symbol.name).Tracks after := by
  by_cases paints : symbol.name = "m"
  · rw [setMaterial_of_obey paints run, paints]
    exact tracks.paint symbol.parameters
  · by_cases opens : symbol.name = "["
    · rcases breaks_of_obey_opening (by simpa [Symbol.opens] using opens) run with
        ⟨between, breaks, rfl⟩
      rw [opens]
      exact (tracks.breaks breaks).save
    · by_cases closes : symbol.name = "]"
      · rcases breaks_of_obey_closing (by simpa [Symbol.closes] using closes) run with
          ⟨between, breaks, rfl⟩
        rw [closes]
        exact (tracks.breaks breaks).restore
      · have same : painter.next symbol.name = painter := by
          unfold next
          split <;> simp_all
        have stack := stack_of_obey run
        have notOpens : symbol.opens = false := by simpa [Symbol.opens] using opens
        have notCloses : symbol.closes = false := by simpa [Symbol.closes] using closes
        rw [notOpens, notCloses, if_neg Bool.false_ne_true, if_neg Bool.false_ne_true] at stack
        rcases paint_of_obey paints run with ⟨palette_eq, material_eq⟩
        rw [same]
        exact tracks.of_eq palette_eq (material_eq notCloses) stack

/-- The meshes of a run carry the marks that the machine foresees. -/
theorem Tracks.run {emitter : Emitter} {word : List Symbol} (tracks : painter.Tracks before)
    (emits : emitter.Tracks before) (run : (word.forM Turtle.obey).run before = .ok ⟨⟩ after) :
    (painter.after (word.map Symbol.name)).Tracks after ∧
      ∃ meshes, after.scene.meshes.toList = before.scene.meshes.toList ++ meshes ∧
        List.Forall₂ (Mark.Carried after.palette)
          (painter.marks emitter (word.map Symbol.name)) meshes := by
  induction word generalizing painter emitter before with
  | nil =>
      cases run
      exact ⟨tracks, [], (List.append_nil _).symm, .nil⟩
  | cons symbol word induction =>
      rcases run_forM_cons_eq_ok_iff.mp run with ⟨between, first, rest⟩
      rcases emits.obey first with ⟨emitsNext, emitted, emitsFirst, kinds⟩
      rcases induction (tracks.obey first) emitsNext rest with ⟨tracksLast, others, scene, carried⟩
      refine ⟨tracksLast, emitted ++ others, ?_, ?_⟩
      · rw [scene, emitsFirst.scene, List.append_assoc]
      · refine List.rel_append ?_ carried
        rcases exists_creates run with ⟨created, palette_eq, _⟩
        have inUse : after.palette[painter.ink]? = some before.pose.material := by
          rw [palette_eq]
          exact getElem?_append_of_eq_some tracks.ink
        rw [← kinds, List.map_map, List.forall₂_map_left_iff, List.forall₂_same]
        intro mesh member
        exact ⟨rfl, inUse.trans (congrArg some (emitsFirst.material mesh member).symm)⟩

end Painter

end GrowthGrammar
