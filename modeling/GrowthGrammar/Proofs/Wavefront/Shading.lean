import GrowthGrammar.Proofs.Wavefront.RoundTrip

/-!
# Shading of a file

A statement about smoothing stays in force until the next one, from one object to the next. A mesh
with flat shading is read with flat faces; a smooth one is too if it stands behind a flat one.
-/

namespace GrowthGrammar

def Mesh.isFlat (mesh : Mesh) : Bool :=
  mesh.material.value.flatShading

namespace Wavefront

/-! ## Settings -/

/-- Whether smoothing is off behind a line. A line about anything else leaves it as it is. -/
def offBehind (off : Bool) (line : String) : Bool :=
  if keyword line = "s" then argument line = "off" || argument line = "0" else off

/-- Whether smoothing is off at each of the faces of some lines. -/
def offAtFaces (off : Bool) : List String → List Bool
  | [] => []
  | line :: lines =>
      let behind := offAtFaces (offBehind off line) lines
      if keyword line = "f" then off :: behind else behind

/-- The settings at the faces of each section. A section begins with the setting that the one
before it has left in force. -/
def offInSections (off : Bool) : List (String × List String) → List (List Bool)
  | [] => []
  | (_, body) :: rest => offAtFaces off body :: offInSections (body.foldl offBehind off) rest

/-- Whether smoothing is off at each of the faces of each object of a file. It is on to begin
with. -/
def readShading (text : String) : List (List Bool) :=
  let (front, objects) := sections "o" (pieces '\n' text)
  offInSections (front.foldl offBehind false) objects

example : readShading "o a\nf 1 2 3\ns off\nf 1 2 3\no b\nf 1 2 3\ns 1\nf 1 2 3\n" =
    [[false, true], [true, false]] := by
  rfl

theorem foldl_offBehind {lines : List String} (unmarked : ∀ line ∈ lines, keyword line ≠ "s")
    (off : Bool) : lines.foldl offBehind off = off := by
  induction lines with
  | nil => rfl
  | cons line lines induction =>
      rw [List.forall_mem_cons] at unmarked
      rw [List.foldl_cons, offBehind, if_neg unmarked.1, induction unmarked.2]

theorem offAtFaces_append (off : Bool) (first second : List String) :
    offAtFaces off (first ++ second) =
      offAtFaces off first ++ offAtFaces (first.foldl offBehind off) second := by
  induction first generalizing off with
  | nil => rfl
  | cons line first induction =>
      rw [List.cons_append, offAtFaces, offAtFaces, induction, List.foldl_cons]
      split <;> rfl

theorem offAtFaces_eq_nil {lines : List String} (unmarked : ∀ line ∈ lines, keyword line ≠ "f")
    (off : Bool) : offAtFaces off lines = [] := by
  induction lines generalizing off with
  | nil => rfl
  | cons line lines induction =>
      rw [List.forall_mem_cons] at unmarked
      rw [offAtFaces, if_neg unmarked.1, induction unmarked.2]

theorem offAtFaces_of_faces {lines : List String} (marked : ∀ line ∈ lines, keyword line = "f")
    (off : Bool) : offAtFaces off lines = List.replicate lines.length off := by
  induction lines with
  | nil => rfl
  | cons line lines induction =>
      rw [List.forall_mem_cons] at marked
      have unmarked : keyword line ≠ "s" := by
        rw [marked.1]
        decide
      rw [offAtFaces, if_pos marked.1, offBehind, if_neg unmarked, induction marked.2]
      rfl

/-! ## Objects -/

section

variable {word mark : String} (single : ' ' ∉ word.toList) {rest : α → String} {items : List α}

include single

theorem keyword_of_mem_map :
    ∀ line ∈ items.map fun item => word ++ " " ++ rest item, keyword line = word := by
  intro line member
  obtain ⟨item, _, rfl⟩ := List.mem_map.mp member
  exact keyword_append_blank single _

theorem keyword_ne_of_mem_map (different : word ≠ mark) :
    ∀ line ∈ items.map fun item => word ++ " " ++ rest item, keyword line ≠ mark := by
  intro line member
  rw [keyword_of_mem_map single line member]
  exact different

theorem foldl_offBehind_map (different : word ≠ "s") (off : Bool) :
    (items.map fun item => word ++ " " ++ rest item).foldl offBehind off = off :=
  foldl_offBehind (keyword_ne_of_mem_map single different) off

end

/-- The line of a flat material turns smoothing off; there is no line that turns it on. -/
theorem foldl_shadingLines (flat off : Bool) :
    ((if flat then ["off"] else []).map fun mode => "s" ++ " " ++ mode).foldl offBehind off =
      (off || flat) := by
  cases flat <;> cases off <;> decide

section

variable (used : List (Tracked Material)) (precision before : Nat) (mesh : Mesh) (off : Bool)

theorem foldl_objectBody :
    (objectBody used precision before mesh).foldl offBehind off = (off || mesh.isFlat) := by
  rw [objectBody, List.foldl_append, List.foldl_append, List.foldl_append,
    foldl_offBehind_map (by decide) (by decide), foldl_shadingLines,
    foldl_offBehind_map (by decide) (by decide),
    foldl_offBehind_map (by decide) (by decide)]
  rfl

theorem offAtFaces_objectBody :
    offAtFaces off (objectBody used precision before mesh) =
      List.replicate mesh.solid.faces.length (off || mesh.isFlat) := by
  rw [objectBody, offAtFaces_append, List.foldl_append, List.foldl_append, foldl_shadingLines,
    foldl_offBehind_map (by decide) (by decide),
    foldl_offBehind_map (by decide) (by decide),
    offAtFaces_of_faces (keyword_of_mem_map (by decide)), List.length_map, offAtFaces_eq_nil]
  · rfl
  · intro line member
    rw [List.mem_append, List.mem_append] at member
    rcases member with (material | vertex) | mode
    · exact keyword_ne_of_mem_map (by decide) (by decide) line material
    · exact keyword_ne_of_mem_map (by decide) (by decide) line vertex
    · exact keyword_ne_of_mem_map (by decide) (by decide) line mode

/-- Every object has the setting that the objects up to it have led to. -/
theorem offInSections_objectsFrom (place before : Nat) (off : Bool) {meshes : List Mesh}
    {index : Nat} {mesh : Mesh} (found : meshes[index]? = some mesh) :
    (offInSections off
        (sections "o" (objectsFrom used precision place before meshes ++ [""])).2)[index]? =
      some (List.replicate mesh.solid.faces.length
        (off || (meshes.take (index + 1)).any Mesh.isFlat)) := by
  induction meshes generalizing place before off index with
  | nil => cases found
  | cons first meshes induction =>
      have blank : ∀ line ∈ (sections "o" (objectsFrom used precision (place + 1)
          (before + first.solid.vertices.length) meshes ++ [""])).1, keyword line = "" :=
        front_of_objectsFrom used precision _ _ meshes
      have silent (mark : String) (marks : "" ≠ mark) : ∀ line ∈ (sections "o" (objectsFrom used
          precision (place + 1) (before + first.solid.vertices.length) meshes ++ [""])).1,
          keyword line ≠ mark := by
        intro line member
        rw [blank line member]
        exact marks
      rw [objectsFrom_cons, sections_block (keyword_append_blank (by decide) _)
        (keyword_of_mem_objectBody used precision before first)]
      dsimp only
      rw [offInSections, List.foldl_append, foldl_objectBody,
        foldl_offBehind (silent "s" (by decide))]
      cases index with
      | zero =>
          cases found
          rw [List.getElem?_cons_zero, offAtFaces_append, offAtFaces_objectBody,
            offAtFaces_eq_nil (silent "f" (by decide)), List.append_nil]
          simp
      | succ index =>
          rw [List.getElem?_cons_succ, induction _ _ _ found]
          simp [Bool.or_assoc]

theorem length_offInSections (off : Bool) (parts : List (String × List String)) :
    (offInSections off parts).length = parts.length := by
  induction parts generalizing off with
  | nil => rfl
  | cons part parts induction =>
      rw [offInSections, List.length_cons, induction]
      rfl

end

/-! ## Files -/

section

variable {meshes : List Mesh} {precision : Nat} {title path : String}
  (kinds : ∀ mesh ∈ meshes, '\n' ∉ mesh.kind.toList) (titleLine : '\n' ∉ title.toList)
  (fileNameLine : '\n' ∉ (Path.fileName (materialPath path)).toList)

include kinds titleLine fileNameLine

theorem readShading_objectText :
    readShading (objectText meshes precision title path) =
      offInSections false
        (sections "o" (objectsFrom (usedMaterials meshes) precision 0 0 meshes ++ [""])).2 := by
  have keywords := @keyword_of_mem_headLines title (Path.fileName (materialPath path))
  have unmarked : ∀ line ∈ headLines title (Path.fileName (materialPath path)),
      keyword line ≠ "o" :=
    fun line member equal => absurd (equal ▸ keywords line member) (by decide)
  have silent : ∀ line ∈ headLines title (Path.fileName (materialPath path)) ++
      (sections "o" (objectsFrom (usedMaterials meshes) precision 0 0 meshes ++ [""])).1,
      keyword line ≠ "s" := by
    intro line member equal
    rcases List.mem_append.mp member with head | blank
    · exact absurd (equal ▸ keywords line head) (by decide)
    · exact absurd (equal ▸ front_of_objectsFrom _ _ _ _ _ line blank) (by decide)
  rw [readShading, pieces_objectText kinds titleLine fileNameLine, sections_append unmarked]
  dsimp only
  rw [foldl_offBehind silent]

end

theorem length_sections_objectsFrom (used : List (Tracked Material))
    (precision place before : Nat) (meshes : List Mesh) :
    (sections "o" (objectsFrom used precision place before meshes ++ [""])).2.length =
      meshes.length := by
  induction meshes generalizing place before with
  | nil => rfl
  | cons mesh meshes induction =>
      rw [objectsFrom_cons, sections_block (keyword_append_blank (by decide) _)
        (keyword_of_mem_objectBody used precision before mesh), List.length_cons, induction]
      rfl

/-- A scene is written and read. All faces of a mesh have one setting, and smoothing is off just if
the mesh is flat or another one before it is. So the faces are read as the mesh is, flat or smooth,
unless a smooth mesh with faces stands behind a flat one. -/
theorem shading_reaches_unless_behind {meshes : List Mesh} {path title : String} {precision : Int}
    (valid : 0 ≤ precision ∧ precision ≤ 10) (kinds : ∀ mesh ∈ meshes, '\n' ∉ mesh.kind.toList)
    (titleLine : '\n' ∉ title.toList)
    (fileNameLine : '\n' ∉ (Path.fileName (materialPath path)).toList) :
    ∃ delivery objects materials,
      Delivery.ofMeshes meshes path precision title = .ok delivery ∧
      delivery.files = [⟨path, [objects]⟩, ⟨materialPath path, [materials]⟩] ∧
      (readShading objects).length = meshes.length ∧
      ∀ index mesh, meshes[index]? = some mesh →
        let behindFlat := (meshes.take index).any Mesh.isFlat
        ∃ settings, (readShading objects)[index]? = some settings ∧
          settings = List.replicate mesh.solid.faces.length (behindFlat || mesh.isFlat) ∧
          ((∀ off ∈ settings, (off ↔ mesh.isFlat)) ↔
            ¬(mesh.solid.faces ≠ [] ∧ behindFlat ∧ ¬mesh.isFlat)) := by
  have accepted : Config.isPrecision precision = true := by
    simpa [Config.isPrecision] using valid
  have shading :=
    @readShading_objectText meshes precision.toNat title path kinds titleLine fileNameLine
  refine ⟨_, _, _, if_pos accepted, rfl, ?_, ?_⟩
  · rw [shading, length_offInSections, length_sections_objectsFrom]
  · intro index mesh found behindFlat
    have read := offInSections_objectsFrom (usedMaterials meshes) precision.toNat 0 0 false found
    have any_eq : (meshes.take (index + 1)).any Mesh.isFlat = (behindFlat || mesh.isFlat) := by
      rw [List.take_add_one, found, Option.toList_some, List.any_append, List.any_cons,
        List.any_nil, Bool.or_false]
    rw [← shading, Bool.false_or, any_eq] at read
    refine ⟨_, read, rfl, ?_⟩
    simp only [List.mem_replicate, ne_eq, List.length_eq_zero_iff]
    cases behindFlat <;> cases mesh.isFlat <;> simp

/-- A triangle of a material. -/
def triangleMesh (material : Tracked Material) : Mesh :=
  ⟨"box", ⟨material.id, { vertices := [⟨0, 0, 0⟩, ⟨1, 0, 0⟩, ⟨0, 1, 0⟩], faces := [⟨0, 1, 2⟩] }⟩,
    material, .identity⟩

def flatMaterial : Tracked Material :=
  { id := 1, value := .ofParameters [0, 0, 0, 1] }

def smoothMaterial : Tracked Material :=
  { id := 2, value := .ofParameters [0, 0, 0, 0] }

/-- Flat meshes behind smooth ones. -/
theorem shading_reaches_unless_behind_of_order :
    let meshes := [triangleMesh smoothMaterial, triangleMesh flatMaterial,
      triangleMesh flatMaterial]
    ((0 : Int) ≤ 2 ∧ (2 : Int) ≤ 10) ∧ (∀ mesh ∈ meshes, '\n' ∉ mesh.kind.toList) ∧
      '\n' ∉ "s off".toList ∧ '\n' ∉ (Path.fileName (materialPath "out.obj")).toList ∧
      ∃ delivery objects materials,
        Delivery.ofMeshes meshes "out.obj" 2 "s off" = .ok delivery ∧
        delivery.files = [⟨"out.obj", [objects]⟩, ⟨materialPath "out.obj", [materials]⟩] ∧
        (readShading objects)[0]? = some [false] ∧ (readShading objects)[1]? = some [true] := by
  intro meshes
  have valid : (0 : Int) ≤ 2 ∧ (2 : Int) ≤ 10 := by decide
  have kinds : ∀ mesh ∈ meshes, '\n' ∉ mesh.kind.toList := by decide
  have titleLine : '\n' ∉ "s off".toList := by decide
  have fileNameLine : '\n' ∉ (Path.fileName (materialPath "out.obj")).toList := by decide
  obtain ⟨delivery, objects, materials, written, files, _, read⟩ :=
    shading_reaches_unless_behind valid kinds titleLine fileNameLine
  obtain ⟨_, first, rfl, _⟩ := read 0 _ rfl
  obtain ⟨_, second, rfl, _⟩ := read 1 _ rfl
  refine ⟨valid, kinds, titleLine, fileNameLine, delivery, objects, materials, written, files, ?_⟩
  have smooth : (triangleMesh smoothMaterial).isFlat = false := by decide
  have flat : (triangleMesh flatMaterial).isFlat = true := by decide
  rw [first, second, smooth, flat]
  exact ⟨rfl, rfl⟩

/-- A smooth mesh behind a flat one is read with a flat face. -/
theorem flat_face_of_smooth_mesh :
    (triangleMesh smoothMaterial).isFlat = false ∧
      readShading (objectText [triangleMesh flatMaterial, triangleMesh smoothMaterial] 5 ""
        "out.obj") = [[true], [true]] := by
  decide +kernel

end Wavefront

end GrowthGrammar
