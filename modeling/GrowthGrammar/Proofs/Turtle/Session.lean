import GrowthGrammar.Proofs.Turtle.Resources

/-!
# Sessions

A turtle is used for any number of generations, some of which may fail, and its generations are
released in any order and any number of times. A session keeps account of what was made.
-/

namespace GrowthGrammar

open Fallible

inductive Call
  | generate (commands : List Symbol) (settings : List (String × Float))
  | release (place : Nat)

/-- A turtle with an account of its calls: the commands carried out since the last reset, the scenes
as they were when they were superseded, the generations made with their scenes as they were made,
and the place of the generation in use, if there is one. The scene in use is open until its
generation is released. -/
structure Session where
  turtle : Turtle
  obeyed : List Symbol
  superseded : List Scene
  made : List (Generation × Scene)
  current? : Option Nat
  isOpen : Bool

namespace Session

/-- A new turtle that has carried out a word. -/
def start (defaults : Defaults) (word : List Symbol) : Session :=
  { turtle := stateOf ((word.forM Turtle.obey).run (.new defaults))
    obeyed := (Turtle.new defaults).carriedOut word
    superseded := []
    made := []
    current? := none
    isOpen := true }

def call (session : Session) : Call → Session
  | .generate commands settings =>
      let clean := (session.turtle.setDefaults settings).reset
      let begun : Session :=
        { session with
          obeyed := clean.carriedOut commands
          superseded := session.superseded ++ [session.turtle.scene]
          isOpen := true }
      match (Turtle.generate commands settings).run session.turtle with
      | .ok generation turtle =>
          { begun with
            turtle
            made := session.made ++ [(generation, turtle.scene)]
            current? := some session.made.length }
      | .error _ turtle => { begun with turtle, current? := none }
  | .release place =>
      match session.made[place]? with
      | some (generation, _) =>
          { session with
            turtle := session.turtle.release generation
            isOpen := session.isOpen && session.current? ≠ some place }
      | none => session

def run (session : Session) (calls : List Call) : Session :=
  calls.foldl call session

/-- The generation was made at a place among all others, with the scene. -/
def MadeAt (session : Session) (place : Nat) (generation : Generation) (scene : Scene) : Prop :=
  session.made[place]? = some (generation, scene)

/-- The generation is the one in use, and has not been released. -/
def InUse (session : Session) (place : Nat) : Prop :=
  session.current? = some place ∧ session.isOpen = true

/-- What is true of the resources of a session. -/
structure Accounted (session : Session) : Prop where
  /-- Until it is released, the arena holds what the commands since the last reset have made. -/
  opened : session.isOpen = true → session.turtle.Made session.obeyed ∧
    session.turtle.scene.arena.size =
      (wordMaterials session.obeyed).length + session.turtle.scene.meshes.size
  /-- Each resource is held once, as a material or as a geometry. -/
  once : (session.turtle.scene.arena.materials.map Tracked.id ++
    session.turtle.scene.arena.geometries.map Tracked.id).Perm
      (List.range session.turtle.scene.arena.nextId)
  /-- When it is released, it is empty. -/
  closed : session.isOpen = false →
    session.turtle.scene.Cleared ∧ session.turtle.scene.arena.size = 0
  /-- Only the last generation can be in use. Its resources are not disposed of, and its scene is as
  it was made. -/
  inUse : ∀ place generation scene, session.MadeAt place generation scene → session.InUse place →
    place + 1 = session.made.length ∧ session.turtle.sceneOf generation = scene ∧
      scene.arena.released = false ∧ ∀ holding ∈ scene.arena.holdings, holding.disposed = false
  /-- Of every other generation all resources are disposed of, and all meshes are gone. -/
  released : ∀ place generation scene, session.MadeAt place generation scene →
    ¬session.InUse place →
      session.turtle.sceneOf generation = scene.release ∧ scene.release.Cleared
  /-- So it is with the scenes of all earlier runs, be they of generations or not. -/
  superseded : session.turtle.earlier.toList = session.superseded.map Scene.release
  /-- To release a generation twice is to release it once. -/
  twice : ∀ generation,
    (session.turtle.release generation).release generation = session.turtle.release generation
  /-- To release a generation that is not the last one changes nothing. -/
  older : ∀ place generation scene, session.MadeAt place generation scene →
    place + 1 ≠ session.made.length → session.turtle.release generation = session.turtle

/-- Where the scenes of the generations are: that of the last one with the turtle, and the others,
released, among the earlier ones. -/
structure Tied (session : Session) : Prop where
  opened : session.isOpen = true → session.turtle.Made session.obeyed
  closed : session.isOpen = false → session.current?.isSome = true
  last : ∀ place, session.current? = some place → place + 1 = session.made.length
  current : ∀ place generation scene, session.MadeAt place generation scene →
    session.current? = some place → generation.run = session.turtle.earlier.size ∧
      session.turtle.scene = if session.isOpen then scene else scene.release
  earlier : ∀ place generation scene, session.MadeAt place generation scene →
    session.current? ≠ some place →
      session.turtle.earlier[generation.run]? = some scene.release
  superseded : session.turtle.earlier.toList = session.superseded.map Scene.release

variable {session : Session} {place : Nat} {generation : Generation} {scene : Scene}

theorem tied_start (defaults : Defaults) (word : List Symbol) : (start defaults word).Tied := by
  rcases Turtle.made_of_start defaults #[] word with ⟨made, earlier⟩
  exact
    { opened := fun _ => made
      closed := fun shut => by cases shut
      last := fun _ current => by cases current
      current := fun _ _ _ _ current => by cases current
      earlier := fun _ _ _ madeAt _ => by cases madeAt
      superseded := congrArg Array.toList earlier }

/-- When a run begins, every generation made so far is an earlier one. -/
theorem Tied.earlier_of_push (tied : session.Tied)
    (madeAt : session.MadeAt place generation scene) :
    (session.turtle.earlier.push session.turtle.scene.release)[generation.run]? =
      some scene.release := by
  by_cases current : session.current? = some place
  · rcases tied.current place generation scene madeAt current with ⟨run_eq, scene_eq⟩
    rw [run_eq, Array.getElem?_push_size, scene_eq]
    cases session.isOpen <;> simp
  · have earlier := tied.earlier place generation scene madeAt current
    rcases Array.getElem?_eq_some_iff.mp earlier with ⟨less, _⟩
    rw [Array.getElem?_push, if_neg less.ne, earlier]

theorem madeAt_of_append {last : Generation × Scene}
    (found : (session.made ++ [last])[place]? = some (generation, scene))
    (notLast : place ≠ session.made.length) : session.MadeAt place generation scene := by
  have inside := (List.getElem?_eq_some_iff.mp found).1
  rw [List.length_append, List.length_singleton] at inside
  rwa [List.getElem?_append_left (by omega)] at found

theorem Tied.generate (tied : session.Tied) (commands : List Symbol)
    (settings : List (String × Float)) : (session.call (.generate commands settings)).Tied := by
  rcases session.turtle.made_of_generate commands settings with ⟨made, earlier⟩
  have superseded : (session.turtle.earlier.push session.turtle.scene.release).toList =
      (session.superseded ++ [session.turtle.scene]).map Scene.release := by
    rw [Array.toList_push, tied.superseded, List.map_append, List.map_singleton]
  rw [call]
  cases ended : (Turtle.generate commands settings).run session.turtle with
  | ok generation after =>
      have run_eq := Turtle.run_eq_of_generate ended
      rw [ended, stateOf] at made earlier
      exact
        { opened := fun _ => made
          closed := fun shut => by cases shut
          last := fun place current => by
            rw [← Option.some.inj current, List.length_append, List.length_singleton]
          current := fun place other scene madeAt current => by
            rw [← Option.some.inj current, MadeAt, List.getElem?_concat_length] at madeAt
            cases madeAt
            exact ⟨run_eq, rfl⟩
          earlier := fun place other scene madeAt current => by
            have notLast : place ≠ session.made.length := fun same => current (same ▸ rfl)
            exact earlier ▸ tied.earlier_of_push (madeAt_of_append madeAt notLast)
          superseded := earlier ▸ superseded }
  | error error after =>
      rw [ended, stateOf] at made earlier
      exact
        { opened := fun _ => made
          closed := fun shut => by cases shut
          last := fun _ current => by cases current
          current := fun _ _ _ _ current => by cases current
          earlier := fun place generation scene madeAt _ => earlier ▸ tied.earlier_of_push madeAt
          superseded := earlier ▸ superseded }

theorem Tied.release (tied : session.Tied) (place : Nat) :
    (session.call (.release place)).Tied := by
  rw [call]
  cases found : session.made[place]? with
  | none => exact tied
  | some entry =>
      rcases entry with ⟨generation, scene⟩
      dsimp only
      by_cases current : session.current? = some place
      · rcases tied.current place generation scene found current with ⟨run_eq, scene_eq⟩
        have released_eq : session.turtle.scene.release = scene.release := by
          rw [scene_eq]
          cases session.isOpen <;> simp
        have shut : (session.isOpen && decide (session.current? ≠ some place)) = false := by
          simp [current]
        rw [Turtle.release_current run_eq, released_eq, shut]
        exact
          { opened := fun isOpen => by cases isOpen
            closed := fun _ => by simp [current]
            last := tied.last
            current := fun other otherGeneration otherScene madeAt otherCurrent => by
              obtain rfl : place = other := Option.some.inj (current.symm.trans otherCurrent)
              cases found.symm.trans madeAt
              exact ⟨run_eq, rfl⟩
            earlier := tied.earlier
            superseded := tied.superseded }
      · have still :
            (session.isOpen && decide (session.current? ≠ some place)) = session.isOpen := by
          simp [current]
        rw [Turtle.release_earlier (tied.earlier place generation scene found current), still]
        exact tied

theorem Tied.run (tied : session.Tied) (calls : List Call) : (session.run calls).Tied := by
  induction calls generalizing session with
  | nil => exact tied
  | cons call calls induction =>
      apply induction
      cases call with
      | generate commands settings => exact tied.generate commands settings
      | release place => exact tied.release place

theorem Tied.accounted (tied : session.Tied) : session.Accounted where
  opened := fun isOpen => ⟨tied.opened isOpen, (tied.opened isOpen).owns.size_eq⟩
  once := session.turtle.scene.arena.ids_perm
  closed := by
    intro shut
    have cleared : session.turtle.scene.Cleared := by
      rcases Option.isSome_iff_exists.mp (tied.closed shut) with ⟨place, current⟩
      have inside : place < session.made.length := Nat.le_of_eq (tied.last place current)
      have madeAt := List.getElem?_eq_getElem inside
      rcases tied.current place _ _ madeAt current with ⟨_, scene_eq⟩
      rw [scene_eq, shut, if_neg Bool.false_ne_true]
      exact Scene.cleared_release _
    exact ⟨cleared, Arena.size_of_disposed cleared.disposed⟩
  inUse := by
    rintro place generation scene madeAt ⟨current, isOpen⟩
    rcases tied.current place generation scene madeAt current with ⟨run_eq, scene_eq⟩
    rw [if_pos isOpen] at scene_eq
    have owns := (tied.opened isOpen).owns
    rw [Turtle.sceneOf_current run_eq, ← scene_eq]
    exact ⟨tied.last place current, rfl, owns.unreleased, owns.undisposed⟩
  released := by
    intro place generation scene madeAt notInUse
    refine ⟨?_, scene.cleared_release⟩
    by_cases current : session.current? = some place
    · rcases tied.current place generation scene madeAt current with ⟨run_eq, scene_eq⟩
      have shut : session.isOpen ≠ true := fun isOpen => notInUse ⟨current, isOpen⟩
      rw [Turtle.sceneOf_current run_eq, scene_eq, if_neg shut]
    · exact Turtle.sceneOf_earlier (tied.earlier place generation scene madeAt current)
  superseded := tied.superseded
  twice := session.turtle.release_release
  older := by
    intro place generation scene madeAt notLast
    have notCurrent : session.current? ≠ some place := fun current =>
      notLast (tied.last place current)
    exact Turtle.release_earlier (tied.earlier place generation scene madeAt notCurrent)

/-- Whatever is generated, failing midway or not, and released, in any order and any number of
times: every resource is accounted for. -/
theorem run_accounted (defaults : Defaults) (word : List Symbol) (calls : List Call) :
    ((start defaults word).run calls).Accounted :=
  ((tied_start defaults word).run calls).accounted

/-- A generation that fails behind its first command, and another one released twice. -/
example :
    let calls : List Call := [.generate [⟨"box", []⟩, ⟨"m", [255]⟩] [],
      .generate [⟨"m", []⟩, ⟨"+x", [1 / 0]⟩, ⟨"box", []⟩] [], .release 0, .release 0]
    let session := (start .standard []).run calls
    session.obeyed.map Symbol.name = ["m"] ∧ session.made.length = 1 ∧
      session.current? = none ∧ session.isOpen = true ∧
      session.turtle.scene.arena.size = 2 := by
  decide +kernel

end Session

end GrowthGrammar
