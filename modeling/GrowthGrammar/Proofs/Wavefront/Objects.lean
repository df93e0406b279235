import GrowthGrammar.Proofs.Fallible
import GrowthGrammar.Proofs.Wavefront.Reading

/-!
# Objects of a file

What is read from the objects of a file is what was written: names, vertices, and faces that point
to the vertices of their own object.
-/

namespace GrowthGrammar

open Fallible

/-- Every face has its vertices in the solid. -/
def Solid.InRange (solid : Solid Float) : Prop :=
  ∀ face ∈ solid.faces, ∀ place ∈ face.vertices, place < solid.vertices.length

instance (solid : Solid Float) : Decidable solid.InRange :=
  inferInstanceAs (Decidable (∀ face ∈ solid.faces, ∀ place ∈ face.vertices, _))

namespace Wavefront

/-! ## Lines of an object -/

def coordinateTexts (precision : Nat) (vertex : Vec3 Float) : List String :=
  [numberText precision vertex.x, numberText precision vertex.y, numberText precision vertex.z]

def placeTexts (before : Nat) (face : Face) : List String :=
  face.vertices.map fun place => toString (before + 1 + place)

/-- The lines of an object behind its name, each as a word and what stands behind it. -/
def objectBody (used : List (Tracked Material)) (precision before : Nat) (mesh : Mesh) :
    List String :=
  ([mesh.material].map fun material => "usemtl" ++ " " ++ nameOf used material) ++
    (mesh.worldVertices.map fun vertex =>
      "v" ++ " " ++ " ".intercalate (coordinateTexts precision vertex)) ++
    ((if mesh.material.value.flatShading then ["off"] else []).map fun mode =>
      "s" ++ " " ++ mode) ++
    mesh.solid.faces.map fun face => "f" ++ " " ++ " ".intercalate (placeTexts before face)

theorem vertexLine_eq (precision : Nat) (vertex : Vec3 Float) :
    vertexLine precision vertex =
      "v" ++ " " ++ " ".intercalate (coordinateTexts precision vertex) := by
  apply String.toList_inj.mp
  simp [vertexLine, coordinateTexts]

theorem faceLine_eq (before : Nat) (face : Face) :
    faceLine before face = "f" ++ " " ++ " ".intercalate (placeTexts before face) := by
  apply String.toList_inj.mp
  simp [faceLine, placeTexts, Face.vertices]

theorem objectLines_eq (used : List (Tracked Material)) (precision place before : Nat)
    (mesh : Mesh) :
    objectLines used precision place before mesh =
      ("o" ++ " " ++ (mesh.kind ++ "_" ++ toString place)) ::
        objectBody used precision before mesh := by
  have shading : (if mesh.material.value.flatShading then ["s off"] else []) =
      (if mesh.material.value.flatShading then ["off"] else []).map fun mode =>
        "s" ++ " " ++ mode := by
    split <;> rfl
  rw [objectLines, objectBody, shading, ← funext (vertexLine_eq precision),
    ← funext (faceLine_eq before)]
  simp [String.append_assoc]

section

variable (used : List (Tracked Material)) (precision before : Nat) (mesh : Mesh)

theorem argumentsOf_objectBody (mark : String) :
    argumentsOf mark (objectBody used precision before mesh) =
      (if "usemtl" = mark then [nameOf used mesh.material] else []) ++
        (if "v" = mark then mesh.worldVertices.map fun vertex =>
          " ".intercalate (coordinateTexts precision vertex) else []) ++
        (if "s" = mark then (if mesh.material.value.flatShading then ["off"] else []) else []) ++
        (if "f" = mark then mesh.solid.faces.map fun face =>
          " ".intercalate (placeTexts before face) else []) := by
  rw [objectBody, argumentsOf_append, argumentsOf_append, argumentsOf_append,
    argumentsOf_map (by decide), argumentsOf_map (by decide), argumentsOf_map (by decide),
    argumentsOf_map (by decide), List.map_id']
  rfl

theorem keyword_of_mem_objectBody :
    ∀ line ∈ objectBody used precision before mesh, keyword line ≠ "o" := by
  have named : ∀ word ∈ ["usemtl", "v", "s", "f"], ∀ rest,
      keyword (word ++ " " ++ rest) ≠ "o" := by
    intro word member rest
    have checked : ∀ word ∈ ["usemtl", "v", "s", "f"], ' ' ∉ word.toList ∧ word ≠ "o" := by decide
    rw [keyword_append_blank (checked word member).1]
    exact (checked word member).2
  intro line member
  simp only [objectBody, List.mem_append, List.mem_map] at member
  rcases member with ((⟨_, _, rfl⟩ | ⟨_, _, rfl⟩) | ⟨_, _, rfl⟩) | ⟨_, _, rfl⟩
  all_goals exact named _ (by decide) _

end

/-! ## Reading an object back -/

theorem pieces_coordinateTexts (precision : Nat) (vertex : Vec3 Float) :
    pieces ' ' (" ".intercalate (coordinateTexts precision vertex)) =
      coordinateTexts precision vertex := by
  have texts : coordinateTexts precision vertex = vertex.toList.map (numberText precision) := rfl
  rw [texts]
  exact pieces_numberTexts precision (List.cons_ne_nil _ _)

theorem pieces_placeTexts (before : Nat) (face : Face) :
    pieces ' ' (" ".intercalate (placeTexts before face)) = placeTexts before face := by
  have nonempty : placeTexts before face ≠ [] := List.cons_ne_nil _ _
  apply pieces_intercalate (by decide) nonempty
  intro text member
  rcases List.mem_map.mp member with ⟨place, _, rfl⟩
  simpa using (toDigits_unspaced (before + 1 + place)).1

theorem placesWithin_placeTexts (before : Nat) {count : Nat} {face : Face}
    (inside : ∀ place ∈ face.vertices, place < count) :
    (placeTexts before face).mapM (placeWithin? before count) = some face.vertices := by
  have read : face.vertices.mapM (placeWithin? before count ∘ fun place =>
      toString (before + 1 + place)) = some (face.vertices.map id) :=
    mapM_eq_some_map fun place member => placeWithin?_toString before (inside place member)
  rw [placeTexts, List.mapM_map, read, List.map_id]

/-- What is to be read of a mesh behind `place` others. -/
def entryOf (used : List (Tracked Material)) (precision place : Nat) (mesh : Mesh) : Entry :=
  { name := mesh.kind ++ "_" ++ toString place
    materials := [nameOf used mesh.material]
    vertices := mesh.worldVertices.map (coordinateTexts precision)
    faces := mesh.solid.faces.map Face.vertices }

theorem length_worldVertices (mesh : Mesh) :
    mesh.worldVertices.length = mesh.solid.vertices.length :=
  List.length_map _

theorem readSection?_objectBody (used : List (Tracked Material)) (precision place before : Nat)
    {mesh : Mesh} (inRange : mesh.solid.InRange) {blank : List String}
    (unmarked : ∀ line ∈ blank, keyword line = "") :
    readSection? before (mesh.kind ++ "_" ++ toString place)
        (objectBody used precision before mesh ++ blank) =
      some (entryOf used precision place mesh) := by
  have ignored (mark : String) (marks : mark ≠ "") : argumentsOf mark blank = [] :=
    argumentsOf_eq_nil fun line member equal => marks ((unmarked line member) ▸ equal.symm)
  have vertices : (argumentsOf "v" (objectBody used precision before mesh ++ blank)).map
      (pieces ' ') = mesh.worldVertices.map (coordinateTexts precision) := by
    rw [argumentsOf_append, ignored "v" (by decide), argumentsOf_objectBody, List.append_nil]
    simp [pieces_coordinateTexts]
  have faces : argumentsOf "f" (objectBody used precision before mesh ++ blank) =
      mesh.solid.faces.map fun face => " ".intercalate (placeTexts before face) := by
    rw [argumentsOf_append, ignored "f" (by decide), argumentsOf_objectBody, List.append_nil]
    simp
  have materials : argumentsOf "usemtl" (objectBody used precision before mesh ++ blank) =
      [nameOf used mesh.material] := by
    rw [argumentsOf_append, ignored "usemtl" (by decide), argumentsOf_objectBody, List.append_nil]
    simp
  have places : ∀ face ∈ mesh.solid.faces,
      ((fun face => (pieces ' ' face).mapM
        (placeWithin? before (mesh.worldVertices.map (coordinateTexts precision)).length)) ∘
          fun face => " ".intercalate (placeTexts before face)) face = some face.vertices := by
    intro face member
    rw [Function.comp, pieces_placeTexts, List.length_map, length_worldVertices]
    exact placesWithin_placeTexts before (inRange face member)
  rw [readSection?, vertices, faces, materials, List.mapM_map, mapM_eq_some_map places]
  rfl

end Wavefront

end GrowthGrammar
