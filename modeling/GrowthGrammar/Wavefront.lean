import GrowthGrammar.Files.Path
import GrowthGrammar.Number.Format
import GrowthGrammar.Scene.Basic

/-!
# Wavefront files

The text of a scene as objects with vertices in world coordinates, and the text of the materials
that the objects refer to by name.
-/

namespace GrowthGrammar

namespace Wavefront

/-! Numbers are rounded to a number of decimal places; zeros at the end are left out. -/

def stripZeros (text : List Char) : List Char :=
  if text.contains '.' then
    match (text.reverse.dropWhile (· == '0')) with
    | '.' :: rest => rest.reverse
    | rest => rest.reverse
  else text

/-- Zero is written without a sign; a number that is only rounded to zero keeps its own. -/
def numberChars (precision : Nat) (x : Float) : List Char :=
  stripZeros (Number.fixedChars precision (if x == 0 then 0 else x))

def numberText (precision : Nat) (x : Float) : String :=
  .ofList (numberChars precision x)

/-! Materials. -/

/-- The specular exponent of a roughness between zero and one. -/
def shininess (roughness : Float) : Float :=
  let positive := if roughness < 0 then 0 else roughness
  let limited := if 1 < positive then 1 else positive
  (1 - limited) * 1000

def materialLines (name : String) (material : Material) (precision : Nat) : List String :=
  let number := numberText precision
  let opacity := if material.transparent then material.opacity else 1
  ["newmtl " ++ name,
    "Kd " ++ number material.red ++ " " ++ number material.green ++ " " ++ number material.blue,
    "Ks " ++ number material.metalness ++ " " ++ number material.metalness ++ " " ++
      number material.metalness,
    "Ns " ++ number (shininess material.roughness),
    "d " ++ number opacity,
    "illum 2",
    ""]

/-- The materials of some meshes in the order of their first use, each once. -/
def usedMaterials (meshes : List Mesh) : List (Tracked Material) :=
  (meshes.map Mesh.material).eraseDupsBy fun first second => first.id == second.id

def materialName (place : Nat) : String :=
  "material_" ++ toString place

/-- The name of a material among those in use. -/
def nameOf (used : List (Tracked Material)) (material : Tracked Material) : String :=
  materialName (used.findIdx fun other => other.id == material.id)

def materialFile (meshes : List Mesh) (precision : Nat) : List String :=
  (usedMaterials meshes).zipIdx.flatMap fun (material, place) =>
    materialLines (materialName place) material.value precision

/-! Objects. -/

def vertexLine (precision : Nat) (vertex : Vec3 Float) : String :=
  "v " ++ numberText precision vertex.x ++ " " ++ numberText precision vertex.y ++ " " ++
    numberText precision vertex.z

/-- Vertices are counted through the whole file, from one on; `before` of them stand in front. -/
def faceLine (before : Nat) (face : Face) : String :=
  "f " ++ toString (before + 1 + face.a) ++ " " ++ toString (before + 1 + face.b) ++ " " ++
    toString (before + 1 + face.c)

def objectLines (used : List (Tracked Material)) (precision place before : Nat) (mesh : Mesh) :
    List String :=
  ["o " ++ mesh.kind ++ "_" ++ toString place, "usemtl " ++ nameOf used mesh.material] ++
    mesh.worldVertices.map (vertexLine precision) ++
    (if mesh.material.value.flatShading then ["s off"] else []) ++
    mesh.solid.faces.map (faceLine before)

/-- The lines of meshes behind `place` others with `before` vertices. -/
def objectsFrom (used : List (Tracked Material)) (precision place before : Nat) :
    List Mesh → List String
  | [] => []
  | mesh :: meshes =>
      objectLines used precision place before mesh ++
        objectsFrom used precision (place + 1) (before + mesh.solid.vertices.length) meshes

/-- A title that is not empty stands in a comment at the top. -/
def objectFile (meshes : List Mesh) (precision : Nat) (title materialFileName : String) :
    List String :=
  (if title.isEmpty then [] else ["# " ++ title]) ++ ["mtllib " ++ materialFileName] ++
    objectsFrom (usedMaterials meshes) precision 0 0 meshes

def vertexCount (meshes : List Mesh) : Nat :=
  meshes.foldl (fun count mesh => count + mesh.solid.vertices.length) 0

/-! Both files. -/

/-- The path of the material file that belongs to an object file. -/
def materialPath (path : String) : String :=
  Path.withExtension path "mtl"

def objectText (meshes : List Mesh) (precision : Nat) (title path : String) : String :=
  "\n".intercalate (objectFile meshes precision title (Path.fileName (materialPath path))) ++ "\n"

def materialText (meshes : List Mesh) (precision : Nat) : String :=
  "\n".intercalate (materialFile meshes precision)

end Wavefront

end GrowthGrammar
