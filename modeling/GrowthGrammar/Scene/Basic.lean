import GrowthGrammar.Geometry.Bounds
import GrowthGrammar.Geometry.Frame
import GrowthGrammar.Scene.Arena

/-!
# Scenes

A scene holds the meshes of one run with the arena that owns what they are made of.
-/

namespace GrowthGrammar

/-- A resource with its identity. Meshes share a material when its identity is the same. -/
structure Tracked (α : Type) where
  id : Nat
  value : α

/-- A geometry with the frame that it was made at. -/
structure Mesh where
  kind : String
  geometry : Tracked (Solid Float)
  material : Tracked Material
  frame : Frame Float

namespace Mesh

def solid (mesh : Mesh) : Solid Float :=
  mesh.geometry.value

def worldVertices (mesh : Mesh) : List (Vec3 Float) :=
  mesh.solid.vertices.map mesh.frame.transform

end Mesh

structure Scene where
  arena : Arena
  meshes : Array Mesh

namespace Scene

def empty : Scene :=
  { arena := .empty, meshes := #[] }

def addMaterial (scene : Scene) (material : Material) : Scene × Tracked Material :=
  ({ scene with arena := scene.arena.track (.material material) },
    { id := scene.arena.nextId, value := material })

def addMesh (scene : Scene) (kind : String) (solid : Solid Float) (material : Tracked Material)
    (frame : Frame Float) : Scene :=
  let geometry : Tracked (Solid Float) := { id := scene.arena.nextId, value := solid }
  { arena := scene.arena.track (.geometry solid)
    meshes := scene.meshes.push { kind, geometry, material, frame } }

def release (scene : Scene) : Scene :=
  { arena := scene.arena.release, meshes := #[] }

def bounds (scene : Scene) : Bounds :=
  Bounds.ofPoints (scene.meshes.toList.flatMap Mesh.worldVertices)

end Scene

end GrowthGrammar
