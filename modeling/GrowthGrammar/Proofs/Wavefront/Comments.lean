import GrowthGrammar.Proofs.Wavefront.RoundTrip

/-!
# Comments of a file

A title stands behind the mark of a comment, and the mark reaches to the end of the line. What a
title holds behind a line end is read as lines of the file.
-/

namespace GrowthGrammar

namespace Wavefront

/-- A line that begins with the mark of a comment. -/
def isComment (line : String) : Bool :=
  line.toList.head? == some '#'

/-- The lines of a file that are no comments. -/
def statements (text : String) : List String :=
  (pieces '\n' text).filter fun line => !isComment line

/-- The lines of a title behind its first that are no comments. Only a newline ends a line here, as
in the files that are written; a carriage return is part of one. -/
def strayLines (title : String) : List String :=
  (pieces '\n' title).tail.filter fun line => !isComment line

example : strayLines "oak\nv 1 2 3\n# by hand\n" = ["v 1 2 3", ""] := by decide

theorem strayLines_eq_nil {title : String} (unbroken : '\n' ∉ title.toList) :
    strayLines title = [] := by
  have single : pieces '\n' ("\n".intercalate [title]) = [title] :=
    pieces_intercalate (by decide) (List.cons_ne_nil _ _) (by simpa using unbroken)
  rw [String.intercalate_singleton] at single
  rw [strayLines, single]
  rfl

theorem pieces_append (front back : String) :
    pieces '\n' (front ++ "\n" ++ back) = pieces '\n' front ++ pieces '\n' back := by
  have split_eq : (front.toList ++ '\n' :: back.toList).splitOn '\n' =
      front.toList.splitOn '\n' ++ back.toList.splitOn '\n' :=
    List.splitOnP_append_cons _ _ (beq_self_eq_true '\n')
  rw [pieces, pieces, pieces, ← List.map_append, ← split_eq]
  simp

theorem statements_append (front back : String) :
    statements (front ++ "\n" ++ back) = statements front ++ statements back := by
  rw [statements, pieces_append, List.filter_append]
  rfl

/-- The mark makes a comment of the first line only. -/
theorem statements_comment (title : String) : statements ("# " ++ title) = strayLines title := by
  have split_eq : ("# " ++ title).toList.splitOn '\n' =
      (title.toList.splitOn '\n').modifyHead (fun line => '#' :: ' ' :: line) := by
    simp [List.splitOn, List.splitOnP_cons_eq_if_modifyHead, Function.comp_def]
  rw [statements, strayLines, pieces, pieces, split_eq]
  cases title.toList.splitOn '\n' with
  | nil => rfl
  | cons first others =>
      have comment : isComment (.ofList ('#' :: ' ' :: first)) = true := by
        rw [isComment, String.toList_ofList]
        rfl
      rw [List.modifyHead_cons, List.map_cons, List.filter_cons_of_neg (by simpa using comment)]
      rfl

section

variable (meshes : List Mesh) (precision : Nat) (path : String)

theorem objectText_of_title {title : String} (given : title.isEmpty = false) :
    objectText meshes precision title path =
      "# " ++ title ++ "\n" ++ objectText meshes precision "" path := by
  have nonempty : objectFile meshes precision "" (Path.fileName (materialPath path)) ≠ [] := by
    simp [objectFile]
  have titled : objectFile meshes precision title (Path.fileName (materialPath path)) =
      ("# " ++ title) :: objectFile meshes precision "" (Path.fileName (materialPath path)) := by
    simp [objectFile, given]
  rw [objectText, titled, String.intercalate_cons_of_ne_nil nonempty, String.append_assoc]
  rfl

theorem statements_objectText (title : String) :
    statements (objectText meshes precision title path) =
      strayLines title ++ statements (objectText meshes precision "" path) := by
  cases given : title.isEmpty with
  | true =>
      rw [String.isEmpty_iff.mp given]
      rfl
  | false => rw [objectText_of_title meshes precision path given, statements_append,
      statements_comment]

end

/-- A scene is written under two titles. Either file has the stray lines of its title on top of the
lines that are written without a title, so comments apart the files are equal just if the titles
have the same stray lines, as all titles of one line have. Nothing else depends on the title. -/
theorem ofMeshes_under_titles (meshes : List Mesh) (path : String) {precision : Int}
    (valid : 0 ≤ precision ∧ precision ≤ 10) (first second : String) :
    ∃ objects others materials notices,
      Delivery.ofMeshes meshes path precision first =
        .ok { files := [⟨path, [objects]⟩, ⟨materialPath path, [materials]⟩], notices } ∧
      Delivery.ofMeshes meshes path precision second =
        .ok { files := [⟨path, [others]⟩, ⟨materialPath path, [materials]⟩], notices } ∧
      statements objects =
        strayLines first ++ statements (objectText meshes precision.toNat "" path) ∧
      statements others =
        strayLines second ++ statements (objectText meshes precision.toNat "" path) ∧
      (statements objects = statements others ↔ strayLines first = strayLines second) ∧
      ('\n' ∉ first.toList → '\n' ∉ second.toList → statements objects = statements others) := by
  have accepted : Config.isPrecision precision = true := by
    simpa [Config.isPrecision] using valid
  have firstLines := statements_objectText meshes precision.toNat path first
  have secondLines := statements_objectText meshes precision.toNat path second
  refine ⟨_, _, _, _, if_pos accepted, if_pos accepted, firstLines, secondLines, ?_, ?_⟩
  · rw [firstLines, secondLines, List.append_left_inj]
  · intro firstUnbroken secondUnbroken
    rw [firstLines, secondLines, strayLines_eq_nil firstUnbroken, strayLines_eq_nil secondUnbroken]

/-- One triangle. -/
def triangleScene : List Mesh :=
  [⟨"box", ⟨0, { vertices := [⟨0, 0, 0⟩, ⟨1, 0, 0⟩, ⟨0, 1, 0⟩], faces := [⟨0, 1, 2⟩] }⟩,
    ⟨1, .standard⟩, .identity⟩]

/-- Titles of one line are comments. -/
theorem ofMeshes_under_titles_of_one_line :
    ((0 : Int) ≤ 5 ∧ (5 : Int) ≤ 10) ∧ '\n' ∉ "oak # v 1 2 3".toList ∧ '\n' ∉ "".toList ∧
      ∃ objects others materials notices,
        Delivery.ofMeshes triangleScene "out.obj" 5 "oak # v 1 2 3" =
          .ok { files := [⟨"out.obj", [objects]⟩, ⟨"out.mtl", [materials]⟩], notices } ∧
        Delivery.ofMeshes triangleScene "out.obj" 5 "" =
          .ok { files := [⟨"out.obj", [others]⟩, ⟨"out.mtl", [materials]⟩], notices } ∧
        statements objects = statements others := by
  have valid : (0 : Int) ≤ 5 ∧ (5 : Int) ≤ 10 := by decide
  have unbroken : '\n' ∉ "oak # v 1 2 3".toList ∧ '\n' ∉ "".toList := by decide
  rcases ofMeshes_under_titles triangleScene "out.obj" valid "oak # v 1 2 3" "" with
    ⟨objects, others, materials, notices, written, untitled, _, _, _, alike⟩
  exact ⟨valid, unbroken.1, unbroken.2, objects, others, materials, notices, written, untitled,
    alike unbroken.1 unbroken.2⟩

/-- A vertex behind a line end of the title is a vertex of the file, and the faces of the scene
point to other vertices than their own. -/
theorem statements_of_broken_title :
    statements (objectText triangleScene 5 "tree\nv 1 2 3" "out.obj") =
        "v 1 2 3" :: statements (objectText triangleScene 5 "tree" "out.obj") ∧
      (readObjects? (objectText triangleScene 5 "tree" "out.obj")).isSome ∧
      (readObjects? (objectText triangleScene 5 "tree\nv 1 2 3" "out.obj")).isNone := by
  decide +kernel

end Wavefront

end GrowthGrammar
