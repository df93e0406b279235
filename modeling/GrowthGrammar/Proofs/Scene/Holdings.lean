import GrowthGrammar.Scene.Basic
import Mathlib.Data.List.Perm.Basic
import Mathlib.Data.List.Range

/-!
# What an arena holds

The resources of each kind with their identities, in the order in which they were tracked, and what
is left of them when the arena is released.
-/

namespace GrowthGrammar

def Resource.material? : Resource → Option Material
  | material value => some value
  | geometry _ => none

def Resource.solid? : Resource → Option (Solid Float)
  | material _ => none
  | geometry solid => some solid

namespace Arena

/-- The resources of one kind. -/
def select (kind? : Resource → Option α) (arena : Arena) : List (Tracked α) :=
  arena.holdings.toList.zipIdx.filterMap fun (holding, id) =>
    (kind? holding.resource).map fun value => { id, value }

def materials (arena : Arena) : List (Tracked Material) :=
  arena.select Resource.material?

def geometries (arena : Arena) : List (Tracked (Solid Float)) :=
  arena.select Resource.solid?

theorem select_push (kind? : Resource → Option α) (arena : Arena) (holding : Holding) :
    select kind? { arena with holdings := arena.holdings.push holding } = arena.select kind? ++
      ((kind? holding.resource).map fun value => { id := arena.nextId, value }).toList := by
  rw [select, Array.toList_push, List.zipIdx_append, List.filterMap_append]
  cases kind_eq : kind? holding.resource <;> simp [select, nextId, kind_eq]

theorem select_track (kind? : Resource → Option α) (arena : Arena) (resource : Resource) :
    (arena.track resource).select kind? = arena.select kind? ++
      ((kind? resource).map fun value => { id := arena.nextId, value }).toList :=
  arena.select_push kind? _

theorem select_track_of_eq_none {kind? : Resource → Option α} {resource : Resource}
    (other : kind? resource = none) (arena : Arena) :
    (arena.track resource).select kind? = arena.select kind? := by
  rw [select_track, other]
  exact List.append_nil _

theorem materials_track_material (arena : Arena) (value : Material) :
    (arena.track (.material value)).materials =
      arena.materials ++ [{ id := arena.nextId, value }] :=
  arena.select_track Resource.material? _

theorem materials_track_geometry (arena : Arena) (solid : Solid Float) :
    (arena.track (.geometry solid)).materials = arena.materials :=
  select_track_of_eq_none rfl arena

theorem geometries_track_material (arena : Arena) (value : Material) :
    (arena.track (.material value)).geometries = arena.geometries :=
  select_track_of_eq_none rfl arena

theorem geometries_track_geometry (arena : Arena) (solid : Solid Float) :
    (arena.track (.geometry solid)).geometries =
      arena.geometries ++ [{ id := arena.nextId, value := solid }] :=
  arena.select_track Resource.solid? _

/-- Every identity belongs to one material or to one geometry. -/
theorem ids_perm (arena : Arena) :
    (arena.materials.map Tracked.id ++ arena.geometries.map Tracked.id).Perm
      (List.range arena.nextId) := by
  rcases arena with ⟨⟨holdings⟩, released⟩
  induction holdings using List.reverseRecOn with
  | nil => exact .refl _
  | append_singleton holdings holding induction =>
      obtain ⟨front, front_eq⟩ : ∃ front : Arena, front = ⟨⟨holdings⟩, released⟩ := ⟨_, rfl⟩
      have arena_eq : (⟨⟨holdings ++ [holding]⟩, released⟩ : Arena) =
          { front with holdings := front.holdings.push holding } := by simp [front_eq]
      have nextId_eq : Arena.nextId { front with holdings := front.holdings.push holding } =
          front.nextId + 1 := by simp [nextId]
      rw [← front_eq] at induction
      rw [arena_eq, materials, geometries, select_push, select_push, nextId_eq, List.range_succ]
      have extended := induction.append_right [front.nextId]
      cases holding.resource with
      | material value =>
          simp only [Resource.material?, Resource.solid?, Option.map_some, Option.toList_some,
            Option.map_none, Option.toList_none, List.append_nil, List.map_append,
            List.map_singleton]
          refine .trans ?_ extended
          rw [List.append_assoc, List.append_assoc]
          exact List.perm_append_comm.append_left _
      | geometry solid =>
          simp only [Resource.material?, Resource.solid?, Option.map_some, Option.toList_some,
            Option.map_none, Option.toList_none, List.append_nil, List.map_append,
            List.map_singleton, ← List.append_assoc]
          exact extended

theorem nodup_materials (arena : Arena) : (arena.materials.map Tracked.id).Nodup :=
  (List.nodup_append.mp (arena.ids_perm.nodup_iff.mpr List.nodup_range)).1

/-! ## Disposing -/

@[simp] theorem dispose_dispose_resource (resource : Resource) :
    resource.dispose.dispose = resource.dispose := by
  cases resource <;> rfl

@[simp] theorem dispose_dispose (holding : Holding) :
    holding.dispose.dispose = holding.dispose := by
  simp [Holding.dispose]

@[simp] theorem release_release (arena : Arena) : arena.release.release = arena.release := by
  simp [release, Function.comp_def]

theorem size_of_undisposed {arena : Arena}
    (undisposed : ∀ holding ∈ arena.holdings, holding.disposed = false) :
    arena.size = arena.nextId := by
  rw [size, Array.countP_eq_size.mpr, nextId]
  simpa using undisposed

theorem size_of_disposed {arena : Arena}
    (disposed : ∀ holding ∈ arena.holdings, holding.disposed = true) : arena.size = 0 := by
  rw [size, Array.countP_eq_zero]
  simpa using disposed

end Arena

namespace Scene

/-- The arena is in use: it holds materials in the order given and the geometries of the meshes,
each once and nothing else, and none of them is disposed of. -/
structure Owns (scene : Scene) (materials : List Material) : Prop where
  unreleased : scene.arena.released = false
  undisposed : ∀ holding ∈ scene.arena.holdings, holding.disposed = false
  materials_eq : scene.arena.materials.map Tracked.value = materials
  geometries_eq : scene.arena.geometries = scene.meshes.toList.map Mesh.geometry

/-- The arena is released: it has disposed of all that it held, and no mesh is left. -/
structure Cleared (scene : Scene) : Prop where
  released : scene.arena.released = true
  disposed : ∀ holding ∈ scene.arena.holdings, holding.disposed = true
  meshes_eq : scene.meshes = #[]

theorem owns_empty : empty.Owns [] where
  unreleased := rfl
  undisposed := by simp [empty, Arena.empty]
  materials_eq := rfl
  geometries_eq := rfl

theorem Owns.size_eq {scene : Scene} {materials : List Material} (owns : scene.Owns materials) :
    scene.arena.size = materials.length + scene.meshes.size := by
  have count := scene.arena.ids_perm.length_eq
  rw [owns.geometries_eq, List.length_append, List.length_map, List.length_map, List.length_map,
    List.length_range] at count
  rw [Arena.size_of_undisposed owns.undisposed, ← count, ← owns.materials_eq, List.length_map]
  rfl

theorem undisposed_track {arena : Arena}
    (undisposed : ∀ holding ∈ arena.holdings, holding.disposed = false) (resource : Resource) :
    ∀ holding ∈ (arena.track resource).holdings, holding.disposed = false := by
  intro holding member
  rcases Array.mem_push.mp member with known | rfl
  · exact undisposed holding known
  · rfl

theorem Owns.addMaterial {scene : Scene} {materials : List Material} (owns : scene.Owns materials)
    (value : Material) : (scene.addMaterial value).1.Owns (materials ++ [value]) where
  unreleased := owns.unreleased
  undisposed := undisposed_track owns.undisposed _
  materials_eq := by
    rw [Scene.addMaterial, Arena.materials_track_material, List.map_append, owns.materials_eq]
    rfl
  geometries_eq := by
    rw [Scene.addMaterial, Arena.geometries_track_material, owns.geometries_eq]

theorem Owns.addMesh {scene : Scene} {materials : List Material} (owns : scene.Owns materials)
    (kind : String) (solid : Solid Float) (material : Tracked Material) (frame : Frame Float) :
    (scene.addMesh kind solid material frame).Owns materials where
  unreleased := owns.unreleased
  undisposed := undisposed_track owns.undisposed _
  materials_eq := by
    rw [Scene.addMesh, Arena.materials_track_geometry, owns.materials_eq]
  geometries_eq := by
    rw [Scene.addMesh, Arena.geometries_track_geometry, owns.geometries_eq, Array.toList_push,
      List.map_append]
    rfl

@[simp] theorem release_release (scene : Scene) : scene.release.release = scene.release := by
  simp [release]

theorem cleared_release (scene : Scene) : scene.release.Cleared := by
  refine ⟨rfl, ?_, rfl⟩
  simp [release, Arena.release, Holding.dispose]

end Scene

end GrowthGrammar
