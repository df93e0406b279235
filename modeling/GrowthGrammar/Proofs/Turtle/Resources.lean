import GrowthGrammar.Proofs.Scene.Holdings
import GrowthGrammar.Proofs.Turtle.Emission

/-!
# Resources of a run

What the arena of a turtle holds is decided by the commands that were carried out since the last
reset, also when the next one has failed.
-/

namespace GrowthGrammar

open Fallible

/-- The materials that a command makes. -/
def Command.materials : Command → List Material
  | .material parameters => [.ofParameters parameters]
  | _ => []

def Symbol.materials (symbol : Symbol) : List Material :=
  if symbol.name = "m" then [.ofParameters symbol.parameters] else []

/-- The materials of a word, with the standard material in front. -/
def wordMaterials (word : List Symbol) : List Material :=
  .ofParameters [] :: word.flatMap Symbol.materials

theorem Symbol.materials_eq (symbol : Symbol) :
    symbol.materials = ((Command.ofSymbol? symbol).map Command.materials).getD [] := by
  unfold Symbol.materials Command.ofSymbol?
  split <;> simp_all [Command.materials]
  split <;> simp_all [Command.materials]

namespace Turtle

variable {before after : Turtle} {materials : List Material}

theorem owns_withTube (owns : before.scene.Owns materials) (solid? : Option (Solid Float)) :
    (before.withTube solid?).scene.Owns materials := by
  cases solid? with
  | none => exact owns
  | some solid => exact owns.addMesh _ _ _ _

theorem owns_ends (owns : before.scene.Owns materials) (ends : Ends before after) :
    after.scene.Owns materials := by
  cases ends with
  | idle => exact owns
  | drawing => exact owns_withTube owns _

theorem owns_breaks (owns : before.scene.Owns materials) (breaks : Breaks before after) :
    after.scene.Owns materials := by
  cases breaks with
  | idle => exact owns
  | drawing =>
      rw [startLine_scene]
      exact owns_withTube owns _

theorem owns_performs {command : Command} (owns : before.scene.Owns materials)
    (performs : Performs before command after) :
    after.scene.Owns (materials ++ command.materials) := by
  have nothing : ∀ {scene : Scene}, scene.Owns materials → scene.Owns (materials ++ []) := by
    simp
  cases performs with
  | material => exact owns.addMaterial _
  | startLine =>
      rw [startLine_scene]
      exact nothing owns
  | endLine ends => exact nothing (owns_ends owns ends)
  | push breaks =>
      have broken := owns_breaks owns breaks
      exact nothing broken
  | pop breaks =>
      rw [restore_scene]
      exact nothing (owns_breaks owns breaks)
  | line | sphere | box | cube | cone => exact nothing (owns.addMesh _ _ _ _)
  | rotate | forward | radius | tension => exact nothing owns

theorem owns_run {word : List Symbol} (owns : before.scene.Owns materials)
    (run : (word.forM obey).run before = .ok ⟨⟩ after) :
    after.scene.Owns (materials ++ word.flatMap Symbol.materials) := by
  induction word generalizing before materials with
  | nil =>
      cases run
      simpa using owns
  | cons symbol word induction =>
      rcases run_forM_cons_eq_ok_iff.mp run with ⟨between, first, rest⟩
      rw [List.flatMap_cons, ← List.append_assoc]
      refine induction ?_ rest
      rw [symbol.materials_eq]
      cases reads : Command.ofSymbol? symbol with
      | none =>
          rw [eq_of_obey_unknown reads first]
          simpa using owns
      | some command => exact owns_performs owns (performs_of_obey reads first)

theorem owns_start (defaults : Defaults) (earlier : Array Scene) :
    (start defaults earlier).scene.Owns [.ofParameters []] :=
  Scene.owns_empty.addMaterial _

/-! ## Runs that fail -/

/-- Nothing but the line of the turtle is lost. -/
def Drops (before after : Turtle) : Prop :=
  after = before ∨ after = { before with stroke? := none }

theorem drops_of_endLine {error : TurtleError}
    (run : endLine.run before = .error error after) : Drops before after := by
  cases drawing : before.stroke? with
  | none =>
      rw [run_endLine_idle drawing] at run
      cases run
  | some stroke =>
      rw [run_endLine_drawing drawing] at run
      split at run
      · cases run
      · cases run
        exact .inr rfl

theorem drops_of_breakLine {error : TurtleError}
    (run : breakLine.run before = .error error after) : Drops before after := by
  rw [breakLine, EStateM.run_bind, EStateM.run_get] at run
  dsimp only at run
  split at run
  · rcases run_bind_eq_error_iff.mp run with failed | ⟨_, between, _, started⟩
    · exact drops_of_endLine failed
    · cases started
  · cases run

/-- A command that fails makes nothing. -/
theorem drops_of_perform {command : Command} {error : TurtleError}
    (run : (perform command).run before = .error error after) : Drops before after := by
  rw [perform, EStateM.run_bind, EStateM.run_get] at run
  dsimp only at run
  cases command with
  | rotate axis sign angle =>
      dsimp only at run
      rw [rotate, EStateM.run_bind, EStateM.run_get] at run
      dsimp only at run
      split at run
      · cases run
      · cases run
        exact .inl rfl
  | endLine => exact drops_of_endLine run
  | push | pop =>
      rcases run_bind_eq_error_iff.mp run with failed | ⟨_, between, _, changed⟩
      · exact drops_of_breakLine failed
      · cases changed
  | _ => cases run

theorem drops_of_obey {symbol : Symbol} {error : TurtleError}
    (run : (obey symbol).run before = .error error after) : Drops before after := by
  rw [obey] at run
  split at run
  · exact drops_of_perform run
  · cases run

/-- The commands in front of the first one that fails. -/
def carriedOut (turtle : Turtle) : List Symbol → List Symbol
  | [] => []
  | symbol :: word =>
      match (obey symbol).run turtle with
      | .ok _ next => symbol :: next.carriedOut word
      | .error _ _ => []

/-- A run ends like the run of the commands that it carries out. -/
theorem exists_run_carriedOut (before : Turtle) (word : List Symbol) :
    ∃ last, ((before.carriedOut word).forM obey).run before = .ok ⟨⟩ last ∧
      Drops last (stateOf ((word.forM obey).run before)) := by
  induction word generalizing before with
  | nil => exact ⟨before, rfl, .inl rfl⟩
  | cons symbol word induction =>
      change ∃ last, _ ∧ Drops last (stateOf ((obey symbol >>= fun _ => word.forM obey).run before))
      rw [carriedOut, EStateM.run_bind]
      cases first : (obey symbol).run before with
      | ok value next =>
          rcases induction next with ⟨last, run, drops⟩
          exact ⟨last, run_forM_cons_eq_ok_iff.mpr ⟨next, first, run⟩, drops⟩
      | error error after => exact ⟨before, rfl, drops_of_obey first⟩

/-! Commands leave the defaults and the scenes of earlier runs alone. -/

def background (turtle : Turtle) : Defaults × Array Scene :=
  (turtle.defaults, turtle.earlier)

@[simp] theorem withTube_background (turtle : Turtle) (solid? : Option (Solid Float)) :
    (turtle.withTube solid?).background = turtle.background := by
  cases solid? <;> rfl

@[simp] theorem startLine_background (turtle : Turtle) :
    turtle.startLine.background = turtle.background := by
  unfold startLine
  split <;> rfl

@[simp] theorem restore_background (turtle : Turtle) :
    turtle.restore.background = turtle.background := by
  unfold restore
  split <;> rfl

theorem Ends.background (ends : Ends before after) : after.background = before.background := by
  cases ends with
  | idle => rfl
  | drawing => simp

theorem Breaks.background (breaks : Breaks before after) :
    after.background = before.background := by
  cases breaks with
  | idle => rfl
  | drawing => simp

theorem Performs.background {command : Command} (performs : Performs before command after) :
    after.background = before.background := by
  cases performs with
  | startLine => exact before.startLine_background
  | endLine ends => exact ends.background
  | push breaks => exact breaks.background
  | pop breaks => exact (restore_background _).trans breaks.background
  | _ => rfl

theorem Drops.background (drops : Drops before after) : after.background = before.background := by
  rcases drops with rfl | rfl <;> rfl

theorem background_of_perform (command : Command) (turtle : Turtle) :
    (stateOf ((perform command).run turtle)).background = turtle.background := by
  cases run : (perform command).run turtle with
  | ok value after => exact (performs_of_run run).background
  | error error after => exact (drops_of_perform run).background

theorem background_of_obey (symbol : Symbol) (turtle : Turtle) :
    (stateOf ((obey symbol).run turtle)).background = turtle.background := by
  rw [obey]
  cases Command.ofSymbol? symbol with
  | none => rfl
  | some command => exact background_of_perform command turtle

theorem background_of_run (word : List Symbol) (turtle : Turtle) :
    (stateOf ((word.forM obey).run turtle)).background = turtle.background := by
  induction word generalizing turtle with
  | nil => rfl
  | cons symbol word induction =>
      have first := background_of_obey symbol turtle
      change (stateOf ((obey symbol >>= fun _ => word.forM obey).run turtle)).background = _
      rw [EStateM.run_bind]
      cases run : (obey symbol).run turtle with
      | ok value next =>
          rw [run] at first
          exact (induction next).trans first
      | error error after =>
          rw [run] at first
          exact first

/-- The turtle has made what the commands make, and holds nothing else. -/
structure Made (turtle : Turtle) (obeyed : List Symbol) : Prop where
  owns : turtle.scene.Owns (wordMaterials obeyed)
  kinds : turtle.scene.meshes.toList.map Mesh.kind = Emitter.start.outputs (obeyed.map Symbol.name)

theorem Made.drops {obeyed : List Symbol} (made : before.Made obeyed)
    (drops : Drops before after) : after.Made obeyed := by
  rcases drops with rfl | rfl
  · exact made
  · exact ⟨made.owns, made.kinds⟩

/-- Also when a run fails, the turtle has made what the commands in front of the failure make. -/
theorem made_of_start (defaults : Defaults) (earlier : Array Scene) (word : List Symbol) :
    let last := stateOf ((word.forM obey).run (start defaults earlier))
    last.Made ((start defaults earlier).carriedOut word) ∧ last.earlier = earlier := by
  rcases exists_run_carriedOut (start defaults earlier) word with ⟨last, run, drops⟩
  have owns := owns_run (owns_start defaults earlier) run
  have tracks : Emitter.start.Tracks (start defaults earlier) := rfl
  rcases tracks.run run with ⟨_, meshes, scene, kinds⟩
  have made : last.Made ((start defaults earlier).carriedOut word) := by
    refine ⟨owns, ?_⟩
    rw [scene, ← kinds]
    rfl
  exact ⟨made.drops drops, congrArg Prod.snd (background_of_run word (start defaults earlier))⟩

/-- A generation is the run of its commands, and what failed before its end is none. -/
theorem run_generate (commands : List Symbol) (settings : List (String × Float)) :
    (generate commands settings).run before =
      match (commands.forM obey).run (before.setDefaults settings).reset with
      | .ok _ last =>
          .ok { run := last.earlier.size, bounds := last.scene.bounds, commands := commands.length }
            { last with stroke? := none }
      | .error error after => .error error after := by
  rw [generate, EStateM.run_bind, EStateM.run_modify]
  dsimp only
  rw [EStateM.run_bind]
  cases (commands.forM obey).run (before.setDefaults settings).reset <;> rfl

/-- Whether it fails or not, a generation releases the scene in use and makes another one. -/
theorem made_of_generate (turtle : Turtle) (commands : List Symbol)
    (settings : List (String × Float)) :
    let after := stateOf ((generate commands settings).run turtle)
    after.Made ((turtle.setDefaults settings).reset.carriedOut commands) ∧
      after.earlier = turtle.earlier.push turtle.scene.release := by
  have made := made_of_start (turtle.setDefaults settings).defaults
    (turtle.earlier.push turtle.scene.release) commands
  have clean_eq : (turtle.setDefaults settings).reset =
      start (turtle.setDefaults settings).defaults (turtle.earlier.push turtle.scene.release) := rfl
  rw [run_generate, clean_eq]
  cases ended : (commands.forM obey).run (start (turtle.setDefaults settings).defaults
      (turtle.earlier.push turtle.scene.release)) with
  | ok value last =>
      rw [ended] at made
      rcases made with ⟨made, earlier⟩
      exact ⟨⟨made.owns, made.kinds⟩, earlier⟩
  | error error last =>
      rw [ended] at made
      exact made

theorem run_eq_of_generate {commands : List Symbol} {settings : List (String × Float)}
    {generation : Generation}
    (run : (generate commands settings).run before = .ok generation after) :
    generation.run = after.earlier.size := by
  rw [run_generate] at run
  split at run
  · cases run
    rfl
  · cases run

/-! ## Releasing generations -/

section

variable {turtle : Turtle} {generation : Generation}

theorem sceneOf_earlier {scene : Scene}
    (found : turtle.earlier[generation.run]? = some scene) : turtle.sceneOf generation = scene := by
  rw [sceneOf, found, Option.getD_some]

theorem sceneOf_current (current : generation.run = turtle.earlier.size) :
    turtle.sceneOf generation = turtle.scene := by
  rw [sceneOf, current, Array.getElem?_size, Option.getD_none]

theorem exists_generate_of_run {commands : List Symbol} {settings : List (String × Float)}
    {last : Turtle}
    (run : (commands.forM obey).run (before.setDefaults settings).reset = .ok ⟨⟩ last) :
    ∃ generation after, (generate commands settings).run before = .ok generation after ∧
      after.stack = last.stack ∧ after.sceneOf generation = last.scene := by
  have generated := @run_generate before commands settings
  rw [run] at generated
  exact ⟨_, _, generated, rfl, sceneOf_current (run_eq_of_generate generated)⟩

/-- What is released already stays as it is. -/
theorem release_earlier {scene : Scene}
    (found : turtle.earlier[generation.run]? = some scene.release) :
    turtle.release generation = turtle := by
  rcases Array.getElem?_eq_some_iff.mp found with ⟨less, element_eq⟩
  have unchanged : turtle.earlier.modify generation.run Scene.release = turtle.earlier := by
    refine Array.ext Array.size_modify fun place _ _ => ?_
    rw [Array.getElem_modify]
    split
    · next same =>
        subst same
        rw [element_eq, Scene.release_release]
    · rfl
  rw [release, if_pos less, unchanged]

theorem release_current (current : generation.run = turtle.earlier.size) :
    turtle.release generation = { turtle with scene := turtle.scene.release } := by
  rw [release, current, if_neg (Nat.lt_irrefl _)]

theorem release_release (turtle : Turtle) (generation : Generation) :
    (turtle.release generation).release generation = turtle.release generation := by
  by_cases less : generation.run < turtle.earlier.size
  · have released : (turtle.release generation).earlier[generation.run]? =
        some (turtle.earlier[generation.run].release) := by
      rw [release, if_pos less]
      simp [less, Array.getElem_modify]
    exact release_earlier released
  · rw [release, release, if_neg less, if_neg less, Scene.release_release]

end

end Turtle

end GrowthGrammar
