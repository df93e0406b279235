import GrowthGrammar.Scene.Basic

/-!
# Identities of materials

An arena gives each material a place of its own, which is the identity of the material.
-/

namespace GrowthGrammar

/-- An identity stands for one material. -/
def Identified (meshes : List Mesh) : Prop :=
  ∀ first ∈ meshes, ∀ second ∈ meshes, first.material.id = second.material.id →
    first.material = second.material

/-- The arena has the material at the place that is its identity. -/
def Scene.Holds (scene : Scene) (material : Tracked Material) : Prop :=
  (scene.arena.holdings[material.id]?).map Holding.resource = some (.material material.value)

namespace Scene

variable {scene : Scene} {material : Tracked Material}

theorem Holds.eq_of_id_eq {other : Tracked Material} (holds : scene.Holds material)
    (otherHolds : scene.Holds other) (same : material.id = other.id) : material = other := by
  rcases material with ⟨id, value⟩
  rcases other with ⟨otherId, otherValue⟩
  cases same
  rw [Holds] at holds otherHolds
  rw [holds] at otherHolds
  cases otherHolds
  rfl

theorem Holds.track (holds : scene.Holds material) (resource : Resource) (meshes : Array Mesh) :
    Holds { arena := scene.arena.track resource, meshes } material := by
  rcases Option.map_eq_some_iff.mp holds with ⟨holding, found, resource_eq⟩
  rcases Array.getElem?_eq_some_iff.mp found with ⟨inside, _⟩
  have kept : (scene.arena.track resource).holdings[material.id]? = some holding := by
    rw [Arena.track, Array.getElem?_push, if_neg (Nat.ne_of_lt inside), found]
  rw [Holds, kept, Option.map_some, resource_eq]

theorem holds_addMaterial (scene : Scene) (value : Material) :
    (scene.addMaterial value).1.Holds (scene.addMaterial value).2 := by
  simp [Holds, addMaterial, Arena.track, Arena.nextId]

theorem identified_of_holds (scene : Scene) {meshes : List Mesh}
    (holds : ∀ mesh ∈ meshes, scene.Holds mesh.material) : Identified meshes :=
  fun first firstMember second secondMember same =>
    (holds first firstMember).eq_of_id_eq (holds second secondMember) same

end Scene

end GrowthGrammar
