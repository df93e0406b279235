import GrowthGrammar.Delivery
import GrowthGrammar.Proofs.Turtle.Ownership
import GrowthGrammar.Proofs.Turtle.Shapes
import GrowthGrammar.Proofs.Wavefront.Materials
import GrowthGrammar.Proofs.Wavefront.Objects

/-!
# Round trip of a scene

Reading the two files of a scene back gives its meshes, with the materials that they share. What
this takes of the meshes holds in every generation of a turtle.
-/

namespace GrowthGrammar

namespace Wavefront

/-! ## The object file -/

section

variable (used : List (Tracked Material)) (precision : Nat)

theorem objectsFrom_cons (place before : Nat) (mesh : Mesh) (meshes lines : List _) :
    objectsFrom used precision place before (mesh :: meshes) ++ lines =
      ("o" ++ " " ++ (mesh.kind ++ "_" ++ toString place)) ::
          objectBody used precision before mesh ++
        (objectsFrom used precision (place + 1) (before + mesh.solid.vertices.length) meshes ++
          lines) := by
  rw [objectsFrom, objectLines_eq, List.append_assoc]

/-- Only the empty line at the end of the file stands outside of all objects. -/
theorem front_of_objectsFrom (place before : Nat) (meshes : List Mesh) :
    ∀ line ∈ (sections "o" (objectsFrom used precision place before meshes ++ [""])).1,
      keyword line = "" := by
  cases meshes with
  | nil => exact (by decide : ∀ line ∈ (sections "o" [""]).1, keyword line = "")
  | cons mesh meshes =>
      rw [objectsFrom_cons, sections_block (keyword_append_blank (by decide) _)
        (keyword_of_mem_objectBody used precision before mesh)]
      simp

theorem readSections?_objectsFrom (place before : Nat) {meshes : List Mesh}
    (inRange : ∀ mesh ∈ meshes, mesh.solid.InRange) :
    readSections? before
        (sections "o" (objectsFrom used precision place before meshes ++ [""])).2 =
      some ((meshes.zipIdx place).map fun (mesh, place) => entryOf used precision place mesh) := by
  induction meshes generalizing place before with
  | nil => rfl
  | cons mesh meshes induction =>
      rcases List.forall_mem_cons.mp inRange with ⟨first, others⟩
      rw [objectsFrom_cons, sections_block (keyword_append_blank (by decide) _)
        (keyword_of_mem_objectBody used precision before mesh)]
      have entry := readSection?_objectBody used precision place before first
        (front_of_objectsFrom used precision (place + 1)
          (before + mesh.solid.vertices.length) meshes)
      have rest := induction (place + 1) (before + mesh.solid.vertices.length) others
      have length_eq : (entryOf used precision place mesh).vertices.length =
          mesh.solid.vertices.length := by
        rw [entryOf, List.length_map, length_worldVertices]
      rw [readSections?, argument_append_blank (by decide), entry]
      dsimp only [bind, Option.bind]
      rw [length_eq, rest]
      rfl

theorem objectLines_unbroken {place before : Nat} {mesh : Mesh} (kind : '\n' ∉ mesh.kind.toList)
    (name : '\n' ∉ (nameOf used mesh.material).toList) :
    ∀ line ∈ objectLines used precision place before mesh, '\n' ∉ line.toList := by
  have head : ∀ line ∈ ["o " ++ mesh.kind ++ "_" ++ toString place,
      "usemtl " ++ nameOf used mesh.material], '\n' ∉ line.toList := by
    simp [kind, name, (toDigits_unspaced place).2]
  have shading : ∀ line ∈ (if mesh.material.value.flatShading then ["s off"] else []),
      '\n' ∉ line.toList := by
    split <;> simp
  intro line member
  rw [objectLines, List.mem_append, List.mem_append, List.mem_append] at member
  rcases member with ((first | vertex) | mode) | face
  · exact head line first
  · rcases List.mem_map.mp vertex with ⟨vertex, _, rfl⟩
    simp [vertexLine, (numberText_unspaced precision _).2]
  · exact shading line mode
  · rcases List.mem_map.mp face with ⟨face, _, rfl⟩
    simp [faceLine, (toDigits_unspaced _).2]

theorem objectsFrom_unbroken {place before : Nat} {meshes : List Mesh}
    (kinds : ∀ mesh ∈ meshes, '\n' ∉ mesh.kind.toList) :
    ∀ line ∈ objectsFrom used precision place before meshes, '\n' ∉ line.toList := by
  induction meshes generalizing place before with
  | nil => simp [objectsFrom]
  | cons mesh meshes induction =>
      rcases List.forall_mem_cons.mp kinds with ⟨kind, others⟩
      intro line member
      rw [objectsFrom, List.mem_append] at member
      rcases member with own | behind
      · exact objectLines_unbroken used precision kind (materialName_unbroken _) line own
      · exact induction others line behind

end

/-- The lines in front of the first object. -/
def headLines (title materialFileName : String) : List String :=
  (if title.isEmpty then [] else ["# " ++ title]) ++ ["mtllib " ++ materialFileName]

theorem headLines_unbroken {title materialFileName : String} (titleLine : '\n' ∉ title.toList)
    (fileNameLine : '\n' ∉ materialFileName.toList) :
    ∀ line ∈ headLines title materialFileName, '\n' ∉ line.toList := by
  unfold headLines
  split <;> simp [titleLine, fileNameLine]

theorem keyword_of_mem_headLines {title materialFileName : String} :
    ∀ line ∈ headLines title materialFileName, keyword line ∈ ["#", "mtllib"] := by
  unfold headLines
  split <;> simp [keyword]

theorem pieces_objectText {meshes : List Mesh} {precision : Nat} {title path : String}
    (kinds : ∀ mesh ∈ meshes, '\n' ∉ mesh.kind.toList) (titleLine : '\n' ∉ title.toList)
    (fileNameLine : '\n' ∉ (Path.fileName (materialPath path)).toList) :
    pieces '\n' (objectText meshes precision title path) =
      headLines title (Path.fileName (materialPath path)) ++
        (objectsFrom (usedMaterials meshes) precision 0 0 meshes ++ [""]) := by
  have ended : objectText meshes precision title path = "\n".intercalate
      (objectFile meshes precision title (Path.fileName (materialPath path)) ++ [""]) := by
    have nonempty : objectFile meshes precision title (Path.fileName (materialPath path)) ≠ [] := by
      simp [objectFile]
    rw [String.intercalate_append_of_ne_nil nonempty (List.cons_ne_nil _ _)]
    simp [objectText]
  rw [ended, pieces_intercalate (by decide) (by simp), objectFile, ← headLines, List.append_assoc]
  intro line member
  rw [objectFile, ← headLines, List.mem_append, List.mem_append] at member
  rcases member with (head | object) | last
  · exact headLines_unbroken titleLine fileNameLine line head
  · exact objectsFrom_unbroken _ _ kinds line object
  · rw [List.mem_singleton.mp last]
    decide

theorem readObjects?_objectText {meshes : List Mesh} {precision : Nat} {title path : String}
    (inRange : ∀ mesh ∈ meshes, mesh.solid.InRange)
    (kinds : ∀ mesh ∈ meshes, '\n' ∉ mesh.kind.toList) (titleLine : '\n' ∉ title.toList)
    (fileNameLine : '\n' ∉ (Path.fileName (materialPath path)).toList) :
    readObjects? (objectText meshes precision title path) =
      some (meshes.zipIdx.map fun (mesh, place) =>
        entryOf (usedMaterials meshes) precision place mesh) := by
  have front : argumentsOf "v" (headLines title (Path.fileName (materialPath path)) ++
      (sections "o" (objectsFrom (usedMaterials meshes) precision 0 0 meshes ++ [""])).1) = [] := by
    rw [argumentsOf_append, List.append_eq_nil_iff]
    constructor
    · exact argumentsOf_eq_nil fun line member equal =>
        absurd (equal ▸ keyword_of_mem_headLines line member) (by decide)
    · exact argumentsOf_eq_nil fun line member equal =>
        absurd (equal ▸ front_of_objectsFrom _ _ _ _ _ line member) (by decide)
  have unmarked : ∀ line ∈ headLines title (Path.fileName (materialPath path)),
      keyword line ≠ "o" :=
    fun line member equal => absurd (equal ▸ keyword_of_mem_headLines line member) (by decide)
  rw [readObjects?, pieces_objectText kinds titleLine fileNameLine, sections_append unmarked]
  dsimp only
  rw [front]
  exact readSections?_objectsFrom (usedMaterials meshes) precision 0 0 inRange

/-! ## Both files -/

/-- What the objects and the blocks of two files say about some meshes. -/
structure Recovers (meshes : List Mesh) (precision : Nat) (entries : List Entry)
    (blocks : List (String × List String)) : Prop where
  names : entries.map Entry.name =
    meshes.zipIdx.map fun (mesh, place) => mesh.kind ++ "_" ++ toString place
  vertices : entries.map Entry.vertices =
    meshes.map fun mesh => mesh.worldVertices.map (coordinateTexts precision)
  faces : entries.map Entry.faces = meshes.map fun mesh => mesh.solid.faces.map Face.vertices
  /-- Every object uses one material. The one block with its name is the block of the material,
  and the numbers of the material are read from it. -/
  materials : ∀ pair ∈ entries.zip meshes, ∃ name body,
    pair.1.materials = [name] ∧
      blocks.filter (fun block => block.1 = name) = [(name, body)] ∧
      ("newmtl " ++ name) :: body = materialLines name pair.2.material.value precision ∧
      readSwatch? body = some (swatchOf precision pair.2.material.value)
  shared : ∀ first ∈ entries.zip meshes, ∀ second ∈ entries.zip meshes,
    first.1.materials = second.1.materials ↔ first.2.material.id = second.2.material.id
  firstUses : (entries.flatMap Entry.materials).eraseDups =
    (List.range blocks.length).map materialName
  blockNames : blocks.map Prod.fst = (List.range blocks.length).map materialName

section

variable (used : List (Tracked Material)) (precision : Nat)

def entriesOf (meshes : List Mesh) : List Entry :=
  meshes.zipIdx.map fun (mesh, place) => entryOf used precision place mesh

theorem map_entriesOf {read : Entry → α} {value : Mesh → α}
    (read_eq : ∀ place mesh, read (entryOf used precision place mesh) = value mesh)
    (meshes : List Mesh) : (entriesOf used precision meshes).map read = meshes.map value := by
  have values : read ∘ (fun (mesh, place) => entryOf used precision place mesh) =
      value ∘ Prod.fst :=
    funext fun (mesh, place) => read_eq place mesh
  rw [entriesOf, List.map_map, values, ← List.map_map, List.zipIdx_map_fst]

theorem materials_of_mem_zip {meshes : List Mesh} {pair : Entry × Mesh}
    (member : pair ∈ (entriesOf used precision meshes).zip meshes) :
    pair.2 ∈ meshes ∧ pair.1.materials = [nameOf used pair.2.material] := by
  rcases List.mem_iff_getElem?.mp member with ⟨place, found⟩
  rcases List.getElem?_zip_eq_some.mp found with ⟨entry, mesh⟩
  have equal : entryOf used precision place pair.2 = pair.1 := by
    simpa [entriesOf, mesh] using entry
  exact ⟨List.mem_of_getElem? mesh, equal ▸ rfl⟩

end

theorem recovers_entriesOf {meshes : List Mesh} (identified : Identified meshes)
    (precision : Nat) :
    Recovers meshes precision (entriesOf (usedMaterials meshes) precision meshes)
      (readBlocks (materialText meshes precision)) where
  names := by
    rw [entriesOf, List.map_map]
    rfl
  vertices := map_entriesOf _ _ (fun _ _ => rfl) meshes
  faces := map_entriesOf _ _ (fun _ _ => rfl) meshes
  materials := by
    rintro ⟨entry, mesh⟩ member
    rcases materials_of_mem_zip _ _ member with ⟨meshMember, materials⟩
    exact ⟨_, _, materials, filter_readBlocks identified meshMember precision,
      (materialLines_eq _ _ _).symm, readSwatch?_blockBody _ _⟩
  shared := by
    rintro ⟨first, firstMesh⟩ firstMember ⟨second, secondMesh⟩ secondMember
    rcases materials_of_mem_zip _ _ firstMember with ⟨meshMember, firstMaterials⟩
    rcases materials_of_mem_zip _ _ secondMember with ⟨_, secondMaterials⟩
    rw [firstMaterials, secondMaterials, List.cons.injEq, and_iff_left rfl]
    exact nameOf_eq_iff meshMember
  firstUses := by
    have materials : (entriesOf (usedMaterials meshes) precision meshes).map Entry.materials =
        meshes.map fun mesh => [nameOf (usedMaterials meshes) mesh.material] :=
      map_entriesOf _ _ (fun _ _ => rfl) meshes
    rw [List.flatMap_def, materials, ← List.flatMap_def, ← List.map_eq_flatMap,
      length_readBlocks, eraseDups_names]
  blockNames := by
    rw [length_readBlocks, blockNames_materialText]

/-- Meshes are written to two files that recover them. -/
def IsRecovered (meshes : List Mesh) (path title : String) (precision : Int) : Prop :=
  ∃ delivery objects materials entries,
    Delivery.ofMeshes meshes path precision title = .ok delivery ∧
      delivery.files = [⟨path, [objects]⟩, ⟨materialPath path, [materials]⟩] ∧
      readObjects? objects = some entries ∧
      Recovers meshes precision.toNat entries (readBlocks materials)

/-! ## Meshes of a turtle -/

theorem inRange_of_consists {solid : Solid Float} {vertices faces : Nat}
    (consists : solid.Consists vertices faces) : solid.InRange := by
  intro face member place corner
  rw [consists.length_vertices]
  exact (consists.triangles face member).2 place corner

theorem inRange_of_shaped {initial : List (String × Float)} {mesh : Mesh}
    (shaped : mesh.Shaped initial) : mesh.solid.InRange := by
  cases shaped with
  | sphere _ _ _ consists | cylinder _ _ consists | box _ consists | tube _ _ _ _ consists =>
      exact inRange_of_consists consists

theorem kind_unbroken_of_shaped {initial : List (String × Float)} {mesh : Mesh}
    (shaped : mesh.Shaped initial) : '\n' ∉ mesh.kind.toList := by
  have kinds : ∀ kind ∈ ["sphere", "line", "cone", "box", "tube"], '\n' ∉ kind.toList := by decide
  apply kinds
  cases shaped with
  | cylinder kind => rcases kind with kind | kind <;> simp [kind]
  | sphere kind | box kind | tube kind => simp [kind]

/-! ## Round trip -/

/-- The files of a scene recover it, if an identity stands for one material in it. So do the files
of whatever a turtle has generated. -/
theorem ofMeshes_recovers {path title : String} {precision : Int}
    (valid : 0 ≤ precision ∧ precision ≤ 10) (titleLine : '\n' ∉ title.toList)
    (fileNameLine : '\n' ∉ (Path.fileName (materialPath path)).toList) :
    (∀ meshes : List Mesh, (∀ mesh ∈ meshes, mesh.solid.InRange) → Identified meshes →
      (∀ mesh ∈ meshes, '\n' ∉ mesh.kind.toList) → IsRecovered meshes path title precision) ∧
    ∀ (initial : List (String × Float)) (before after : Turtle) (commands : List Symbol)
      (settings : List (String × Float)) (generation : Generation), before.Reached initial →
      (Turtle.generate commands settings).run before = .ok generation after →
      IsRecovered (after.sceneOf generation).meshes.toList path title precision := by
  have accepted : Config.isPrecision precision = true := by
    simpa [Config.isPrecision] using valid
  have recovered (meshes : List Mesh) (inRange : ∀ mesh ∈ meshes, mesh.solid.InRange)
      (identified : Identified meshes) (kinds : ∀ mesh ∈ meshes, '\n' ∉ mesh.kind.toList) :
      IsRecovered meshes path title precision :=
    ⟨_, objectText meshes precision.toNat title path, materialText meshes precision.toNat,
      entriesOf (usedMaterials meshes) precision.toNat meshes, if_pos accepted, rfl,
      readObjects?_objectText inRange kinds titleLine fileNameLine,
      recovers_entriesOf identified precision.toNat⟩
  refine ⟨recovered, fun initial before after commands settings generation reached run => ?_⟩
  have shaped : ∀ mesh ∈ (after.sceneOf generation).meshes.toList, mesh.Shaped initial :=
    fun mesh member => Turtle.shaped_of_mem_generation reached run mesh (by simpa using member)
  exact recovered _ (fun mesh member => inRange_of_shaped (shaped mesh member))
    (Turtle.generate_identified run) fun mesh member => kind_unbroken_of_shaped (shaped mesh member)

/-- Two boxes share a material, and a line of another one between them has no vertices. A new turtle
generates a box and a cone, each with a material of its own. -/
theorem ofMeshes_recovers_of_shared :
    let triangle : Solid Float :=
      { vertices := [⟨0, 0, 0⟩, ⟨1, 0, 0⟩, ⟨0, 1, 0⟩], faces := [⟨0, 1, 2⟩] }
    let red : Tracked Material := { id := 7, value := .ofParameters [0xff0000, 0.5, 0, 1] }
    let white : Tracked Material := { id := 3, value := .standard }
    let meshes : List Mesh := [⟨"box", ⟨0, triangle⟩, red, .identity⟩,
      ⟨"line", ⟨1, .empty⟩, white, .initial⟩, ⟨"box", ⟨2, triangle⟩, red, .initial⟩]
    let turtle : Turtle := .new (Defaults.standard.setNamed [])
    let commands : List Symbol := [⟨"cube", []⟩, ⟨"m", [255]⟩, ⟨"cone", []⟩]
    ((0 : Int) ≤ 5 ∧ (5 : Int) ≤ 10) ∧ '\n' ∉ "two boxes".toList ∧
      '\n' ∉ (Path.fileName (materialPath "out/boxes.obj")).toList ∧
      ((∀ mesh ∈ meshes, mesh.solid.InRange) ∧ Identified meshes ∧
        (∀ mesh ∈ meshes, '\n' ∉ mesh.kind.toList) ∧
        IsRecovered meshes "out/boxes.obj" "two boxes" 5) ∧
      turtle.Reached [] ∧ ∃ generation after,
        (Turtle.generate commands []).run turtle = .ok generation after ∧
          (after.sceneOf generation).meshes.toList.map Mesh.kind = ["box", "cone"] ∧
          IsRecovered (after.sceneOf generation).meshes.toList "out/boxes.obj" "two boxes" 5 := by
  intro triangle red white meshes turtle commands
  have valid : (0 : Int) ≤ 5 ∧ (5 : Int) ≤ 10 := by decide
  have titleLine : '\n' ∉ "two boxes".toList := by decide
  have fileNameLine : '\n' ∉ (Path.fileName (materialPath "out/boxes.obj")).toList := by decide
  have inRange : ∀ mesh ∈ meshes, mesh.solid.InRange := by decide
  have identified : Identified meshes := by
    simp [Identified, meshes, red, white]
  have kinds : ∀ mesh ∈ meshes, '\n' ∉ mesh.kind.toList := by decide
  rcases ofMeshes_recovers valid titleLine fileNameLine with ⟨scene, generated⟩
  have reached : turtle.Reached [] := .new
  exact ⟨valid, titleLine, fileNameLine, ⟨inRange, identified, kinds,
    scene meshes inRange identified kinds⟩, reached, _, _, rfl, rfl,
    generated [] turtle _ commands [] _ reached rfl⟩

end Wavefront

end GrowthGrammar
