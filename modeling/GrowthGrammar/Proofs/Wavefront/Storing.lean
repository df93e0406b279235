import GrowthGrammar.Proofs.Files.Writing
import GrowthGrammar.Proofs.Wavefront.Comments

/-!
# Stored scenes

A scene is stored as two files, the materials behind the objects. Both are there in the end just if
their places differ, and these are the same just if the path of the object file has the extension of
material files itself.
-/

namespace GrowthGrammar

open Fallible

namespace Wavefront

section

variable {path : String} {before middle after : FileTree} {place materialPlace : Place}
  {objects materials : ByteArray}

/-- The material file is not the file that has been written before. -/
theorem places_ne (first : FileTree.Wrote path objects place before middle)
    (second : FileTree.Wrote (materialPath path) materials materialPlace middle after)
    (other : ¬ Path.HasExtension path "mtl") : place ≠ materialPlace := by
  have placed := second.keepsFolders.filePlace first.placed
  rcases FileTree.filePlace_eq_ok_iff.mp first.placed with ⟨nonempty, _⟩
  have unclosed := ((FileTree.read_eq_ok_iff first.placed).mp first.read).2.2
  have unslashed : '/' ∉ "mtl".toList := by decide
  have unpointed : '.' ∉ "mtl".toList := by decide
  have name_eq : Path.fileName (materialPath path) = _ := Path.fileName_withExtension unslashed
  have named : Path.fileName (materialPath path) ≠ "" := by
    rw [name_eq]
    simp
  apply FileTree.filePlace_ne placed second.placed
  rw [Path.getLast?_parts (Path.fileName_ne_empty nonempty unclosed), Path.getLast?_parts named]
  intro same
  apply other
  rw [← Path.withExtension_eq_self_iff unslashed unpointed]
  exact Path.withExtension_eq_self_of_fileName unslashed (Option.some.inj same).symm

end

section

variable {meshes : List Mesh} {path title : String} {precision : Int} {delivery : Delivery}
  {before after : FileTree}

/-- The objects are written first, and then the materials. -/
theorem exists_wrote (made : Delivery.ofMeshes meshes path precision title = .ok delivery)
    (stored : (delivery.store FileTree.storage).run before = (.ok ⟨⟩, after)) :
    delivery.files.map TextFile.path = [path, materialPath path] ∧
      ∃ middle place materialPlace,
        FileTree.Wrote path (Text.encode (objectText meshes precision.toNat title path)) place
          before middle ∧
        FileTree.Wrote (materialPath path) (Text.encode (materialText meshes precision.toNat))
          materialPlace middle after := by
  rw [Delivery.ofMeshes] at made
  split at made
  · cases made
    rcases Delivery.exists_store_of_storeFiles stored with ⟨middle, storedFirst, storedRest⟩
    rcases Delivery.exists_store_of_storeFiles storedRest with ⟨last, storedSecond, storedNone⟩
    cases storedNone
    rcases TextFile.wrote_of_store storedFirst with ⟨place, first⟩
    rcases TextFile.wrote_of_store storedSecond with ⟨materialPlace, second⟩
    simp only [String.join_cons, String.join_nil, String.append_empty] at first second
    exact ⟨rfl, middle, place, materialPlace, first, second⟩
  · cases made

/-- Whatever the tree and the path are with which a scene is stored: the material file holds the
materials, and the object file is another file and holds the objects just if its path does not have
the extension of a material file. If it has, the materials replace the objects. -/
theorem stored_scene_survives_iff
    (made : Delivery.ofMeshes meshes path precision title = .ok delivery)
    (stored : (delivery.store FileTree.storage).run before = (.ok ⟨⟩, after)) :
    let objects := Text.encode (objectText meshes precision.toNat title path)
    let materials := Text.encode (materialText meshes precision.toNat)
    delivery.files.map TextFile.path = [path, materialPath path] ∧
      after.read (materialPath path) = .ok materials ∧
      ∃ place materialPlace, after.filePlace path = .ok place ∧
        after.filePlace (materialPath path) = .ok materialPlace ∧
        (place ≠ materialPlace ∧ after.read path = .ok objects ↔ ¬ Path.HasExtension path "mtl") ∧
        (Path.HasExtension path "mtl" →
          materialPath path = path ∧ after.read path = .ok materials) := by
  intro objects materials
  rcases exists_wrote made stored with ⟨paths, middle, place, materialPlace, first, second⟩
  have placed := second.keepsFolders.filePlace first.placed
  refine ⟨paths, second.read, place, materialPlace, placed, second.placed, ?_, ?_⟩
  · constructor
    · rintro ⟨apart, _⟩ extended
      rw [← Path.withExtension_eq_self_iff (by decide) (by decide)] at extended
      have same : Except.ok place = Except.ok materialPlace :=
        placed.symm.trans (extended ▸ second.placed)
      exact apart (Except.ok.inj same)
    · intro other
      have apart := places_ne first second other
      exact ⟨apart, second.read_earlier first.placed first.read apart⟩
  · intro extended
    rw [← Path.withExtension_eq_self_iff (by decide) (by decide)] at extended
    exact ⟨extended, extended ▸ second.read⟩

end

/-- Whether a scene can be stored, so that it can be tried out. -/
def isStored (meshes : List Mesh) (path : String) (precision : Int) (title : String)
    (before : FileTree) : Bool :=
  (Delivery.ofMeshes meshes path precision title).toOption.any fun delivery =>
    ((delivery.store FileTree.storage).run before).1.isOk

theorem exists_of_isStored {meshes : List Mesh} {path title : String} {precision : Int}
    {before : FileTree} (isStored : isStored meshes path precision title before) :
    ∃ delivery after, Delivery.ofMeshes meshes path precision title = .ok delivery ∧
      (delivery.store FileTree.storage).run before = (.ok ⟨⟩, after) := by
  rw [Wavefront.isStored] at isStored
  cases made : Delivery.ofMeshes meshes path precision title with
  | error error =>
      rw [made] at isStored
      cases isStored
  | ok delivery =>
      rw [made] at isStored
      rcases stored : (delivery.store FileTree.storage).run before with ⟨result, after⟩
      change ((delivery.store FileTree.storage).run before).1.isOk at isStored
      rw [stored] at isStored
      rcases exists_ok_of_isOk isStored with ⟨⟨⟩, rfl⟩
      exact ⟨delivery, after, rfl, stored⟩

/-- A path with a point in its folder and none in its name. -/
theorem stored_scene_survives_iff_of_bare :
    ∃ delivery after, Delivery.ofMeshes triangleScene "a.b/oak" 5 "" = .ok delivery ∧
      (delivery.store FileTree.storage).run (.empty ["w"]) = (.ok ⟨⟩, after) ∧
      after.read "a.b/oak" = .ok (Text.encode (objectText triangleScene 5 "" "a.b/oak")) ∧
      after.read "a.b/oak.mtl" = .ok (Text.encode (materialText triangleScene 5)) := by
  rcases exists_of_isStored (by decide +kernel :
    isStored triangleScene "a.b/oak" 5 "" (.empty ["w"])) with ⟨delivery, after, made, stored⟩
  rcases stored_scene_survives_iff made stored with
    ⟨_, heldMaterials, _, _, _, _, survives, _⟩
  have other : ¬ Path.HasExtension "a.b/oak" "mtl" := by
    rw [← Path.withExtension_eq_self_iff (by decide) (by decide)]
    decide
  have materialPath_eq : materialPath "a.b/oak" = "a.b/oak.mtl" := by decide
  exact ⟨delivery, after, made, stored, (survives.mpr other).2, materialPath_eq ▸ heldMaterials⟩

/-- The path of the object file is that of the material file, so the objects are lost. -/
theorem objects_lost_under_material_path :
    ∃ delivery after, Delivery.ofMeshes triangleScene "out.mtl" 5 "" = .ok delivery ∧
      (delivery.store FileTree.storage).run (.empty ["w"]) = (.ok ⟨⟩, after) ∧
      delivery.files.map TextFile.path = ["out.mtl", "out.mtl"] ∧
      after.read "out.mtl" ≠ .ok (Text.encode (objectText triangleScene 5 "" "out.mtl")) := by
  rcases exists_of_isStored (by decide +kernel :
    isStored triangleScene "out.mtl" 5 "" (.empty ["w"])) with ⟨delivery, after, made, stored⟩
  rcases exists_wrote made stored with ⟨paths, _, _, _, _, second⟩
  have materialPath_eq : materialPath "out.mtl" = "out.mtl" := by decide
  have apart : Text.encode (materialText triangleScene 5) ≠
      Text.encode (objectText triangleScene 5 "" "out.mtl") := by
    decide +kernel
  have held := second.read
  rw [materialPath_eq] at paths held
  refine ⟨delivery, after, made, stored, paths, ?_⟩
  rw [held]
  exact fun same => apart (Except.ok.inj same)

end Wavefront

end GrowthGrammar
