import GrowthGrammar.Proofs.Repetition
import GrowthGrammar.Proofs.Scene.Identity
import GrowthGrammar.Proofs.Wavefront.Reading

/-!
# Materials of a file

Materials are named by their number in the order of their first use. The names tell them apart, and
each name heads one block of the material file, from which the numbers of the material are read.
-/

namespace GrowthGrammar

namespace Wavefront

/-! ## Names -/

theorem materialName_injective {first second : Nat}
    (equal : materialName first = materialName second) : first = second := by
  apply Number.eq_of_toDigits_eq
  simpa [materialName] using congrArg String.toList equal

theorem materialName_unbroken (place : Nat) : '\n' ∉ (materialName place).toList := by
  simp [materialName, (toDigits_unspaced place).2]

/-- The identities of the materials in use, in the order of their first use. -/
def identities (meshes : List Mesh) : List Nat :=
  (meshes.map fun mesh => mesh.material.id).eraseDups

theorem map_id_usedMaterials (meshes : List Mesh) :
    (usedMaterials meshes).map Tracked.id = identities meshes := by
  rw [usedMaterials, Repetition.map_eraseDupsBy, List.map_map]
  rfl

theorem length_identities (meshes : List Mesh) :
    (identities meshes).length = (usedMaterials meshes).length := by
  rw [← map_id_usedMaterials, List.length_map]

theorem id_mem_identities {meshes : List Mesh} {mesh : Mesh} (member : mesh ∈ meshes) :
    mesh.material.id ∈ identities meshes :=
  List.mem_eraseDups.mpr (List.mem_map_of_mem member)

theorem nameOf_usedMaterials (meshes : List Mesh) (material : Tracked Material) :
    nameOf (usedMaterials meshes) material =
      materialName ((identities meshes).idxOf material.id) := by
  rw [nameOf, ← map_id_usedMaterials, List.idxOf, List.findIdx_map]
  rfl

/-- Two meshes have the same name of a material when they share the material, and only then. -/
theorem nameOf_eq_iff {meshes : List Mesh} {first second : Mesh} (member : first ∈ meshes) :
    nameOf (usedMaterials meshes) first.material = nameOf (usedMaterials meshes) second.material ↔
      first.material.id = second.material.id := by
  rw [nameOf_usedMaterials, nameOf_usedMaterials]
  constructor
  · intro equal
    exact (List.idxOf_inj (id_mem_identities member)).mp (materialName_injective equal)
  · intro equal
    rw [equal]

theorem eraseDups_names (meshes : List Mesh) :
    (meshes.map fun mesh => nameOf (usedMaterials meshes) mesh.material).eraseDups =
      (List.range (usedMaterials meshes).length).map materialName := by
  have names : (meshes.map fun mesh => nameOf (usedMaterials meshes) mesh.material) =
      ((meshes.map fun mesh => mesh.material.id).map ((identities meshes).idxOf ·)).map
        materialName := by
    simp [nameOf_usedMaterials]
  rw [names, Repetition.eraseDups_map fun _ _ _ _ equal => materialName_injective equal,
    identities, Repetition.eraseDups_map_idxOf, ← length_identities, identities]

/-! ## Blocks -/

/-- What stands behind the first line of the block of a material. -/
def blockBody (material : Material) (precision : Nat) : List String :=
  (materialLines "" material precision).tail

theorem materialLines_eq (name : String) (material : Material) (precision : Nat) :
    materialLines name material precision = ("newmtl " ++ name) :: blockBody material precision :=
  rfl

theorem keyword_of_mem_blockBody {material : Material} {precision : Nat} :
    ∀ line ∈ blockBody material precision, keyword line ≠ "newmtl" := by
  simp [blockBody, materialLines, keyword]

theorem materialLines_unbroken {name : String} (unbroken : '\n' ∉ name.toList)
    (material : Material) (precision : Nat) :
    ∀ line ∈ materialLines name material precision, '\n' ∉ line.toList := by
  simp [materialLines, (numberText_unspaced precision _).2, unbroken]

theorem pieces_materialText {meshes : List Mesh} (used : usedMaterials meshes ≠ [])
    (precision : Nat) :
    pieces '\n' (materialText meshes precision) = materialFile meshes precision := by
  apply pieces_intercalate (by decide)
  · rcases List.exists_cons_of_ne_nil used with ⟨first, others, equal⟩
    simp [materialFile, equal, materialLines]
  · intro line member
    rcases List.mem_flatMap.mp member with ⟨⟨material, place⟩, _, member⟩
    exact materialLines_unbroken (materialName_unbroken place) material.value precision line member

theorem materialFile_eq (meshes : List Mesh) (precision : Nat) :
    materialFile meshes precision = (usedMaterials meshes).zipIdx.flatMap fun item =>
      ("newmtl" ++ " " ++ materialName item.2) :: blockBody item.1.value precision := by
  have glued : "newmtl" ++ " " = "newmtl " := by decide
  rw [glued]
  rfl

theorem readBlocks_materialText (meshes : List Mesh) (precision : Nat) :
    readBlocks (materialText meshes precision) =
      (usedMaterials meshes).zipIdx.map fun item =>
        (materialName item.2, blockBody item.1.value precision) := by
  by_cases used : usedMaterials meshes = []
  · have noBlocks : readBlocks "" = [] := by decide
    have empty : materialText meshes precision = "" := by
      simp [materialText, materialFile, used]
    rw [empty, used, noBlocks]
    rfl
  · have single : ' ' ∉ "newmtl".toList := by decide
    have blocks : sections "newmtl" ((usedMaterials meshes).zipIdx.flatMap fun item =>
          ("newmtl" ++ " " ++ materialName item.2) :: blockBody item.1.value precision) =
        ([], (usedMaterials meshes).zipIdx.map fun item =>
          (argument ("newmtl" ++ " " ++ materialName item.2),
            blockBody item.1.value precision)) :=
      sections_flatMap (fun item _ => keyword_append_blank single (materialName item.2))
        fun item _ => keyword_of_mem_blockBody
    rw [readBlocks, pieces_materialText used, materialFile_eq, blocks]
    simp only [argument_append_blank single]

theorem length_readBlocks (meshes : List Mesh) (precision : Nat) :
    (readBlocks (materialText meshes precision)).length = (usedMaterials meshes).length := by
  rw [readBlocks_materialText, List.length_map, List.length_zipIdx]

theorem blockNames_materialText (meshes : List Mesh) (precision : Nat) :
    (readBlocks (materialText meshes precision)).map Prod.fst =
      (List.range (usedMaterials meshes).length).map materialName := by
  rw [readBlocks_materialText, List.map_map, List.range_eq_range', ← List.zipIdx_map_snd,
    List.map_map]
  rfl

/-- The material of a mesh is in use, at the place that its name tells. -/
theorem exists_usedMaterial {meshes : List Mesh} (identified : Identified meshes) {mesh : Mesh}
    (member : mesh ∈ meshes) :
    ∃ place, (mesh.material, place) ∈ (usedMaterials meshes).zipIdx ∧
      nameOf (usedMaterials meshes) mesh.material = materialName place := by
  let place := (identities meshes).idxOf mesh.material.id
  have inside : place < (usedMaterials meshes).length := by
    rw [← length_identities]
    exact List.idxOf_lt_length_of_mem (id_mem_identities member)
  have id_eq : (usedMaterials meshes)[place].id = mesh.material.id := by
    have listed := List.getElem_idxOf (List.idxOf_lt_length_of_mem (id_mem_identities member))
    simpa only [place, ← map_id_usedMaterials, List.getElem_map] using listed
  rcases List.mem_map.mp (Repetition.mem_of_mem_eraseDupsBy (List.getElem_mem inside)) with
      ⟨owner, ownerMember, owner_eq⟩
  have material_eq : (usedMaterials meshes)[place] = mesh.material := by
    rw [← owner_eq] at id_eq ⊢
    exact identified owner ownerMember mesh member id_eq
  refine ⟨place, ?_, nameOf_usedMaterials meshes mesh.material⟩
  rw [List.mk_mem_zipIdx_iff_getElem?, List.getElem?_eq_getElem inside, material_eq]

/-- The name of a material heads one block, which is the block of the material. -/
theorem filter_readBlocks {meshes : List Mesh} (identified : Identified meshes) {mesh : Mesh}
    (member : mesh ∈ meshes) (precision : Nat) :
    (readBlocks (materialText meshes precision)).filter
        (fun block => block.1 = nameOf (usedMaterials meshes) mesh.material) =
      [(nameOf (usedMaterials meshes) mesh.material, blockBody mesh.material.value precision)] := by
  have nodup : ((readBlocks (materialText meshes precision)).map Prod.fst).Nodup := by
    rw [blockNames_materialText]
    exact List.nodup_range.map fun _ _ => materialName_injective
  rcases exists_usedMaterial identified member with ⟨place, used, name_eq⟩
  have headed : (materialName place, blockBody mesh.material.value precision) ∈
      readBlocks (materialText meshes precision) := by
    rw [readBlocks_materialText]
    exact List.mem_map.mpr ⟨(mesh.material, place), used, rfl⟩
  rw [name_eq]
  exact Repetition.filter_eq_singleton nodup headed

/-! ## Reading a block back -/

/-- What is to be read of a material. A roughness beyond zero and one counts as the nearer of
them. -/
def swatchOf (precision : Nat) (material : Material) : Swatch where
  diffuse := [material.red, material.green, material.blue].map (numberText precision)
  specular := (List.replicate 3 material.metalness).map (numberText precision)
  exponent := numberText precision <|
    if material.roughness < 0 then 1000
    else if 1 < material.roughness then 0
    else (1 - material.roughness) * 1000
  opacity := numberText precision (if material.transparent then material.opacity else 1)
  illumination := "2"

theorem shininess_eq (roughness : Float) :
    shininess roughness =
      if roughness < 0 then 1000 else if 1 < roughness then 0 else (1 - roughness) * 1000 := by
  have smooth : ¬ (1 : Float) < 0 ∧ (1 - 0) * 1000 = (1000 : Float) := by decide +kernel
  have rough : (1 - 1) * 1000 = (0 : Float) := by decide +kernel
  unfold shininess
  by_cases below : roughness < 0
  · simp only [if_pos below, if_neg smooth.1, smooth.2]
  · by_cases above : 1 < roughness
    · simp only [if_neg below, if_pos above, rough]
    · simp only [if_neg below, if_neg above]

/-- The words of the lines of a block, each with its argument. -/
def blockWords (swatch : Swatch) : List (String × String) :=
  [("Kd", " ".intercalate swatch.diffuse), ("Ks", " ".intercalate swatch.specular),
    ("Ns", swatch.exponent), ("d", swatch.opacity), ("illum", swatch.illumination)]

theorem blockBody_eq (material : Material) (precision : Nat) :
    blockBody material precision =
      ((blockWords (swatchOf precision material)).map fun line => line.1 ++ " " ++ line.2) ++
        [""] := by
  simp [blockBody, materialLines, blockWords, swatchOf, shininess_eq, ← String.toList_inj]

theorem argumentsOf_blockBody (material : Material) (precision : Nat) {mark : String}
    (given : mark ≠ "") :
    argumentsOf mark (blockBody material precision) =
      ((blockWords (swatchOf precision material)).filter fun line => line.1 = mark).map
        Prod.snd := by
  have single : ∀ line ∈ blockWords (swatchOf precision material), ' ' ∉ line.1.toList := by
    simp [blockWords]
  have blank : argumentsOf mark [""] = [] := by
    apply argumentsOf_eq_nil
    simpa [keyword] using given.symm
  rw [blockBody_eq, argumentsOf_append, argumentsOf_words single, blank, List.append_nil]

theorem readSwatch?_blockBody (material : Material) (precision : Nat) :
    readSwatch? (blockBody material precision) = some (swatchOf precision material) := by
  have diffuse : pieces ' ' (" ".intercalate (swatchOf precision material).diffuse) =
      (swatchOf precision material).diffuse :=
    pieces_numberTexts precision (by simp)
  have specular : pieces ' ' (" ".intercalate (swatchOf precision material).specular) =
      (swatchOf precision material).specular :=
    pieces_numberTexts precision (by simp)
  simp [readSwatch?, argumentsOf_blockBody, blockWords, only?, diffuse, specular]

end Wavefront

end GrowthGrammar
