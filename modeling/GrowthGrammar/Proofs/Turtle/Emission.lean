import GrowthGrammar.Proofs.Turtle.Steps

/-!
# Meshes of a run

Which meshes a word leaves behind is decided by a machine that counts moves. It knows no frames and
no points, only whether a line is being drawn and how often the turtle has moved since it began.
-/

namespace GrowthGrammar

open Fallible Turtle

structure Emitter where
  drawing : Bool
  moves : Nat
  deriving DecidableEq, Repr

namespace Emitter

def start : Emitter :=
  { drawing := false, moves := 0 }

def moved (emitter : Emitter) : Emitter :=
  if emitter.drawing then { emitter with moves := emitter.moves + 1 } else emitter

def lineStarted (emitter : Emitter) : Emitter :=
  if emitter.drawing then emitter else { drawing := true, moves := 0 }

def lineEnded (emitter : Emitter) : Emitter :=
  if emitter.drawing then { drawing := false, moves := 0 } else emitter

def lineBroken (emitter : Emitter) : Emitter :=
  if emitter.drawing then { emitter with moves := 0 } else emitter

/-- A line without a move leaves no tube. -/
def tubes (emitter : Emitter) : List String :=
  if emitter.drawing && 1 ≤ emitter.moves then ["tube"] else []

/-- The machine behind a symbol of the given name. -/
def next (emitter : Emitter) (name : String) : Emitter :=
  match name with
  | "s" => emitter.lineStarted
  | "f" => emitter.moved
  | "l" => emitter.moved
  | "e" => emitter.lineEnded
  | "[" => emitter.lineBroken
  | "]" => emitter.lineBroken
  | _ => emitter

/-- The kinds of the meshes that a symbol of the given name emits. -/
def emits (emitter : Emitter) (name : String) : List String :=
  match name with
  | "e" => emitter.tubes
  | "[" => emitter.tubes
  | "]" => emitter.tubes
  | "l" => ["line"]
  | "sphere" => ["sphere"]
  | "box" => ["box"]
  | "cube" => ["box"]
  | "cone" => ["cone"]
  | _ => []

/-- The machine behind a word. A line that is still drawn there has left no tube. -/
def after (emitter : Emitter) (names : List String) : Emitter :=
  names.foldl next emitter

theorem after_append (emitter : Emitter) (first second : List String) :
    emitter.after (first ++ second) = (emitter.after first).after second :=
  List.foldl_append

def outputs (emitter : Emitter) : List String → List String
  | [] => []
  | name :: names => emitter.emits name ++ (emitter.next name).outputs names

example : start.outputs ["s", "f", "[", "l", "]", "e", "s", "f"] = ["tube", "line", "tube"] := by
  decide

end Emitter

/-- The meshes that one command emits: all of one material, with the frame of the turtle unless they
are tubes, and behind the meshes that are there. -/
structure Turtle.Emits (before : Turtle) (meshes : List Mesh) (after : Turtle) : Prop where
  scene : after.scene.meshes.toList = before.scene.meshes.toList ++ meshes
  material : ∀ mesh ∈ meshes, mesh.material = before.pose.material
  frame : ∀ mesh ∈ meshes,
    mesh.frame = if mesh.kind = "tube" then .identity else before.pose.frame

namespace Turtle

theorem Emits.nothing {before after : Turtle}
    (same : after.scene.meshes = before.scene.meshes) : Emits before [] after where
  scene := by rw [same, List.append_nil]
  material := by simp
  frame := by simp

theorem Emits.of_meshes_eq {before between after : Turtle} {meshes : List Mesh}
    (emits : Emits before meshes between) (same : after.scene.meshes = between.scene.meshes) :
    Emits before meshes after where
  scene := same ▸ emits.scene
  material := emits.material
  frame := emits.frame

theorem emits_emit (before : Turtle) {kind : String} (noTube : kind ≠ "tube")
    (solid : Solid Float) :
    ∃ meshes, Emits before meshes (before.emit kind solid) ∧ meshes.map Mesh.kind = [kind] := by
  refine ⟨[_], ⟨Array.toList_push, ?_, ?_⟩, rfl⟩
  · simp
  · simp [noTube]

theorem emits_withTube (before : Turtle) (solid? : Option (Solid Float)) :
    ∃ meshes, Emits before meshes (before.withTube solid?) ∧
      meshes.map Mesh.kind = if solid?.isSome then ["tube"] else [] := by
  cases solid? with
  | none => exact ⟨[], .nothing rfl, rfl⟩
  | some solid =>
      refine ⟨[_], ⟨Array.toList_push, ?_, ?_⟩, rfl⟩
      · simp
      · simp

@[simp] theorem withTube_stroke? (turtle : Turtle) (solid? : Option (Solid Float)) :
    (turtle.withTube solid?).stroke? = none := by
  cases solid? <;> rfl

theorem restore_stroke? (turtle : Turtle) : turtle.restore.stroke? = turtle.stroke? := by
  unfold restore
  split <;> rfl

theorem restore_scene (turtle : Turtle) : turtle.restore.scene = turtle.scene := by
  unfold restore
  split <;> rfl

theorem startLine_scene (turtle : Turtle) : turtle.startLine.scene = turtle.scene := by
  unfold startLine
  split <;> rfl

end Turtle

/-- A tube is made of two points or more. -/
theorem Stroke.isSome_of_tube?_eq_ok {stroke : Stroke} {radius tension : Float}
    {solid? : Option (Solid Float)} (made : stroke.tube? radius tension = .ok solid?) :
    solid?.isSome = decide (1 < stroke.points.size) := by
  unfold tube? at made
  split at made
  · next few =>
      cases made
      simpa using few
  · next many =>
      rcases bind_eq_ok_iff.mp made with ⟨curve, _, made⟩
      rcases bind_eq_ok_iff.mp made with ⟨solid, _, made⟩
      cases made
      simpa using many

namespace Emitter

/-- The machine and the turtle agree: a line has a point for its start and one for each move. -/
def Tracks (emitter : Emitter) (turtle : Turtle) : Prop :=
  match turtle.stroke? with
  | none => emitter.drawing = false
  | some stroke => emitter.drawing = true ∧ stroke.points.size = emitter.moves + 1

/-- A step of the turtle that the machine foresees. -/
structure Foresees (next : Emitter) (kinds : List String) (before after : Turtle) : Prop where
  tracks : next.Tracks after
  emits : ∃ meshes, Emits before meshes after ∧ meshes.map Mesh.kind = kinds

section

variable {emitter : Emitter} {before after : Turtle}

theorem Tracks.of_stroke?_eq (tracks : emitter.Tracks before)
    (same : after.stroke? = before.stroke?) : emitter.Tracks after := by
  simpa only [Tracks, same] using tracks

theorem Tracks.drawing_eq_false (tracks : emitter.Tracks before) (idle : before.stroke? = none) :
    emitter.drawing = false := by
  simpa only [Tracks, idle] using tracks

theorem Tracks.of_drawing {stroke : Stroke} (tracks : emitter.Tracks before)
    (drawing : before.stroke? = some stroke) :
    emitter.drawing = true ∧ stroke.points.size = emitter.moves + 1 := by
  simpa only [Tracks, drawing] using tracks

theorem Tracks.move (tracks : emitter.Tracks before) (length : Float) :
    emitter.moved.Tracks (before.move length) := by
  cases drawing : before.stroke? with
  | none =>
      have idle := tracks.drawing_eq_false drawing
      simp [Tracks, moved, Turtle.move, moveTo, drawing, idle]
  | some stroke =>
      rcases tracks.of_drawing drawing with ⟨drawn, size_eq⟩
      simp [Tracks, moved, Turtle.move, moveTo, drawing, drawn, Stroke.add, size_eq]

theorem Tracks.forward (tracks : emitter.Tracks before) (length : Float) :
    Foresees emitter.moved [] before (before.move length) :=
  ⟨tracks.move length, [], .nothing rfl, rfl⟩

theorem Tracks.startLine (tracks : emitter.Tracks before) :
    emitter.lineStarted.Tracks before.startLine := by
  cases drawing : before.stroke? with
  | none =>
      have idle := tracks.drawing_eq_false drawing
      simp [Tracks, lineStarted, Turtle.startLine, isDrawing, drawing, idle, Stroke.start]
  | some stroke =>
      rcases tracks.of_drawing drawing with ⟨drawn, size_eq⟩
      simp [Tracks, lineStarted, Turtle.startLine, isDrawing, drawing, drawn, size_eq]

theorem tubes_eq {stroke : Stroke} (tracks : emitter.Tracks before)
    (drawing : before.stroke? = some stroke) {radius tension : Float}
    {solid? : Option (Solid Float)} (made : stroke.tube? radius tension = .ok solid?) :
    emitter.tubes = if solid?.isSome then ["tube"] else [] := by
  rcases tracks.of_drawing drawing with ⟨drawn, size_eq⟩
  simp [tubes, drawn, Stroke.isSome_of_tube?_eq_ok made, size_eq, Nat.one_le_iff_ne_zero,
    Nat.pos_iff_ne_zero]

theorem Tracks.ends (tracks : emitter.Tracks before) (ends : Ends before after) :
    Foresees emitter.lineEnded emitter.tubes before after := by
  cases ends with
  | idle idle =>
      have stopped := tracks.drawing_eq_false idle
      refine ⟨?_, [], .nothing rfl, ?_⟩
      · simpa [lineEnded, stopped] using tracks
      · simp [tubes, stopped]
  | drawing drawing made =>
      rcases tracks.of_drawing drawing with ⟨drawn, _⟩
      refine ⟨?_, ?_⟩
      · simp [Tracks, lineEnded, drawn]
      · rw [tubes_eq tracks drawing made]
        exact emits_withTube before _

theorem Tracks.breaks (tracks : emitter.Tracks before) (breaks : Breaks before after) :
    Foresees emitter.lineBroken emitter.tubes before after := by
  cases breaks with
  | idle idle =>
      have stopped := tracks.drawing_eq_false idle
      refine ⟨?_, [], .nothing rfl, ?_⟩
      · simpa [lineBroken, stopped] using tracks
      · simp [tubes, stopped]
  | @drawing stroke solid? drawing made =>
      rcases tracks.of_drawing drawing with ⟨drawn, _⟩
      refine ⟨?_, ?_⟩
      · simp [Tracks, lineBroken, drawn, Turtle.startLine, isDrawing, Stroke.start]
      · rw [tubes_eq tracks drawing made]
        rcases emits_withTube before solid? with ⟨meshes, emits, kinds⟩
        exact ⟨meshes, emits.of_meshes_eq (congrArg Scene.meshes (startLine_scene _)), kinds⟩

/-- A command that leaves the line and the meshes alone. -/
theorem Tracks.silent (tracks : emitter.Tracks before) (stroke : after.stroke? = before.stroke?)
    (meshes : after.scene.meshes = before.scene.meshes) : Foresees emitter [] before after :=
  ⟨tracks.of_stroke?_eq stroke, [], .nothing meshes, rfl⟩

theorem Tracks.emit (tracks : emitter.Tracks before) {kind : String} (noTube : kind ≠ "tube")
    (solid : Solid Float) : Foresees emitter [kind] before (before.emit kind solid) :=
  ⟨tracks.of_stroke?_eq rfl, emits_emit before noTube solid⟩

theorem Foresees.then {next : Emitter} {kinds : List String} {between : Turtle}
    (foresees : Foresees next kinds before between) (stroke : after.stroke? = between.stroke?)
    (meshes : after.scene.meshes = between.scene.meshes) : Foresees next kinds before after := by
  rcases foresees with ⟨tracks, emitted, emits, kinds⟩
  exact ⟨tracks.of_stroke?_eq stroke, emitted, emits.of_meshes_eq meshes, kinds⟩

/-- What the turtle does not know, the machine does not know either. -/
theorem next_unknown {symbol : Symbol} (unknown : Command.ofSymbol? symbol = none) :
    emitter.next symbol.name = emitter ∧ emitter.emits symbol.name = [] := by
  unfold Command.ofSymbol? at unknown
  unfold next emits
  split at unknown <;> simp_all

/-- One step of the turtle is one step of the machine. -/
theorem Tracks.obey {symbol : Symbol} (tracks : emitter.Tracks before)
    (run : (Turtle.obey symbol).run before = .ok ⟨⟩ after) :
    Foresees (emitter.next symbol.name) (emitter.emits symbol.name) before after := by
  cases reads : Command.ofSymbol? symbol with
  | none =>
      rw [(next_unknown reads).1, (next_unknown reads).2, eq_of_obey_unknown reads run]
      exact tracks.silent rfl rfl
  | some command =>
      have performs := performs_of_obey reads run
      rcases symbol with ⟨name, parameters⟩
      unfold Command.ofSymbol? at reads
      dsimp only at reads ⊢
      split at reads <;> cases reads <;> cases performs
      case forward => exact tracks.forward _
      case startLine =>
        have kept := congrArg Scene.meshes before.startLine_scene
        exact ⟨tracks.startLine, [], .nothing kept, rfl⟩
      case endLine ends => exact tracks.ends ends
      case line =>
          rcases emits_emit before (by decide : "line" ≠ "tube") _ with ⟨emitted, emits, kinds⟩
          exact ⟨(tracks.of_stroke?_eq rfl).move _, emitted, emits.of_meshes_eq rfl, kinds⟩
      case push breaks => exact (tracks.breaks breaks).then rfl rfl
      case pop breaks =>
        exact (tracks.breaks breaks).then (restore_stroke? _)
          (congrArg Scene.meshes (restore_scene _))
      case sphere => exact tracks.emit (by decide) _
      case box => exact tracks.emit (by decide) _
      case cube => exact tracks.emit (by decide) _
      case cone => exact tracks.emit (by decide) _
      -- The other commands leave the line and the meshes alone.
      all_goals exact tracks.silent rfl rfl

/-- A run of the turtle is a run of the machine, and what stood in the scene stays there. -/
theorem Tracks.run {word : List Symbol} (tracks : emitter.Tracks before)
    (run : (word.forM Turtle.obey).run before = .ok ⟨⟩ after) :
    (emitter.after (word.map Symbol.name)).Tracks after ∧
      ∃ meshes, after.scene.meshes.toList = before.scene.meshes.toList ++ meshes ∧
        meshes.map Mesh.kind = emitter.outputs (word.map Symbol.name) := by
  induction word generalizing emitter before with
  | nil =>
      cases run
      exact ⟨tracks, [], (List.append_nil _).symm, rfl⟩
  | cons symbol word induction =>
      rcases run_forM_cons_eq_ok_iff.mp run with ⟨between, first, rest⟩
      rcases tracks.obey first with ⟨tracksNext, emitted, emits, kinds⟩
      rcases induction tracksNext rest with ⟨tracksLast, others, scene, otherKinds⟩
      refine ⟨tracksLast, emitted ++ others, ?_, ?_⟩
      · rw [scene, emits.scene, List.append_assoc]
      · rw [List.map_append, kinds, otherKinds]
        rfl

end

end Emitter

namespace Turtle

variable {commands : List Symbol} {settings : List (String × Float)} {before after : Turtle}
  {generation : Generation}

theorem tracks_reset (turtle : Turtle) : Emitter.start.Tracks turtle.reset :=
  rfl

/-- The meshes of a generation are those that the machine puts out, in this order. Each command adds
its own behind those that are there, and those stay as they are to the end. -/
theorem generate_emits
    (run : (generate commands settings).run before = .ok generation after) :
    (after.sceneOf generation).meshes.toList.map Mesh.kind =
        Emitter.start.outputs (commands.map Symbol.name) ∧
      ∀ done symbol rest, commands = done ++ symbol :: rest →
        ∃ earlier later meshes,
          (done.forM obey).run (before.setDefaults settings).reset = .ok ⟨⟩ earlier ∧
          (obey symbol).run earlier = .ok ⟨⟩ later ∧
          Emits earlier meshes later ∧
          meshes.map Mesh.kind =
            (Emitter.start.after (done.map Symbol.name)).emits symbol.name ∧
          later.scene.meshes.toList <+: (after.sceneOf generation).meshes.toList := by
  rcases run_of_generate run with ⟨last, runCommands, scene⟩
  rw [scene]
  have tracks := tracks_reset (before.setDefaults settings)
  constructor
  · rcases tracks.run runCommands with ⟨_, meshes, scene, kinds⟩
    rw [scene, ← kinds]
    rfl
  · rintro done symbol rest rfl
    rcases run_forM_append_eq_ok_iff.mp runCommands with ⟨earlier, runDone, runRest⟩
    rcases run_forM_cons_eq_ok_iff.mp runRest with ⟨later, runSymbol, runRest⟩
    have tracksEarlier := (tracks.run runDone).1
    rcases tracksEarlier.obey runSymbol with ⟨tracksLater, meshes, emits, kinds⟩
    rcases tracksLater.run runRest with ⟨_, others, scene, _⟩
    exact ⟨earlier, later, meshes, runDone, runSymbol, emits, kinds, others, scene.symm⟩

/-- A line without a move, meshes in front of and behind a bracket, and a line that is dropped. -/
theorem generate_emits_of_dropped_lines :
    let commands : List Symbol := [⟨"s", []⟩, ⟨"e", []⟩, ⟨"box", [1]⟩, ⟨"[", []⟩, ⟨"+x", [30]⟩,
      ⟨"m", [255]⟩, ⟨"l", [2]⟩, ⟨"cone", []⟩, ⟨"]", []⟩, ⟨"sphere", []⟩, ⟨"s", []⟩, ⟨"f", []⟩]
    ∃ generation after,
      (generate commands [("size", 2)]).run (Turtle.new .standard) = .ok generation after ∧
        (after.sceneOf generation).meshes.toList.map Mesh.kind = ["box", "line", "cone", "sphere"] ∧
        ∀ done symbol rest, commands = done ++ symbol :: rest →
          ∃ earlier later meshes,
            (done.forM obey).run ((Turtle.new .standard).setDefaults [("size", 2)]).reset =
              .ok ⟨⟩ earlier ∧
            (obey symbol).run earlier = .ok ⟨⟩ later ∧
            Emits earlier meshes later ∧
            meshes.map Mesh.kind =
              (Emitter.start.after (done.map Symbol.name)).emits symbol.name ∧
            later.scene.meshes.toList <+: (after.sceneOf generation).meshes.toList := by
  intro commands
  have accepted : isCompleted
      ((generate commands [("size", 2)]).run (Turtle.new .standard)) = true := by
    decide +kernel
  rcases exists_ok_of_isCompleted accepted with ⟨generation, after, run⟩
  rcases generate_emits run with ⟨kinds, emits⟩
  refine ⟨generation, after, run, ?_, emits⟩
  rw [kinds]
  decide

end Turtle

end GrowthGrammar
