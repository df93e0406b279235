import GrowthGrammar.Files.Path
import GrowthGrammar.Proofs.Text.Span

/-!
# Names of files

A path is cut behind its last slash into a folder and a name. Another extension is given to the name
and leaves the folder as it is, so it makes the same path again only of one that has it.
-/

namespace GrowthGrammar

namespace Path

/-! ## Folder and name -/

theorem pieces_eq_splitOn (text : List Char) : pieces text = text.splitOn '/' := by
  induction text with
  | nil => rfl
  | cons c text induction =>
      rw [pieces, induction, List.splitOn_cons_eq_if_modifyHead]
      by_cases slash : c = '/'
      · rw [if_pos slash, if_pos (beq_iff_eq.mpr slash)]
      · rw [if_neg slash, if_neg (mt beq_iff_eq.mp slash)]
        rcases List.exists_cons_of_ne_nil (List.splitOnP_ne_nil (· == '/') text) with
          ⟨first, others, split⟩
        rw [List.splitOn, split]
        rfl

/-- The text is that of a folder, up to the slash behind it: empty for the current one. -/
def IsFolder (text : List Char) : Prop :=
  text = [] ∨ ∃ front, text = front ++ ['/']

theorem splitLast_append {folder name : List Char} (isFolder : IsFolder folder)
    (unslashed : '/' ∉ name) : splitLast (folder ++ name) = (folder, name) := by
  have stops : Text.Stops (· != '/') folder.reverse := by
    rcases isFolder with rfl | ⟨front, rfl⟩
    · exact Text.stops_nil
    · rw [List.reverse_append]
      exact Text.stops_cons.mpr rfl
  have inside : ∀ c ∈ name.reverse, (c != '/') = true := by
    intro c member
    rw [bne_iff_ne]
    rintro rfl
    exact unslashed (List.mem_reverse.mp member)
  have taken : ((folder ++ name).reverse.takeWhile (· != '/')).reverse = name := by
    rw [List.reverse_append, Text.takeWhile_append inside stops, List.reverse_reverse]
  simp only [splitLast, taken, List.length_append, Nat.add_sub_cancel, List.take_left']

theorem exists_splitLast (path : List Char) :
    ∃ folder name, path = folder ++ name ∧ IsFolder folder ∧ '/' ∉ name := by
  refine ⟨(path.reverse.dropWhile (· != '/')).reverse, (path.reverse.takeWhile (· != '/')).reverse,
    ?_, ?_, ?_⟩
  · rw [← List.reverse_append, List.takeWhile_append_dropWhile, List.reverse_reverse]
  · have first := List.head?_dropWhile_not (· != '/') path.reverse
    cases back : path.reverse.dropWhile (· != '/') with
    | nil => exact .inl rfl
    | cons c rest =>
        rw [back] at first
        have slash : c = '/' := by simpa using first
        exact .inr ⟨rest.reverse, by rw [List.reverse_cons, slash]⟩
  · intro member
    have kept := List.mem_takeWhile_imp (List.mem_reverse.mp member)
    simp at kept

/-- The name of a path is the last of its parts. -/
theorem getLast?_parts {path : String} (named : fileName path ≠ "") :
    (parts path).getLast? = some (fileName path) := by
  rcases exists_splitLast path.toList with ⟨folder, name, cut, isFolder, unslashed⟩
  have name_eq : fileName path = .ofList name := by
    rw [fileName, cut, splitLast_append isFolder unslashed]
  have nonempty : name.isEmpty = false := by
    cases name with
    | nil => exact absurd name_eq named
    | cons c rest => rfl
  have pieces_eq : ∃ front, pieces path.toList = front ++ [name] := by
    rw [pieces_eq_splitOn, cut]
    rcases isFolder with rfl | ⟨front, rfl⟩
    · exact ⟨[], List.splitOn_eq_singleton unslashed⟩
    · refine ⟨front.splitOn '/', ?_⟩
      rw [List.append_assoc, List.singleton_append, List.splitOn_append_cons_self,
        List.splitOn_eq_singleton unslashed]
  rcases pieces_eq with ⟨front, pieces_eq⟩
  simp [parts, pieces_eq, name_eq, nonempty]

/-- A path that is not empty and does not end with a slash has a name. -/
theorem fileName_ne_empty {path : String} (nonempty : path.isEmpty = false)
    (unclosed : endsWithSlash path = false) : fileName path ≠ "" := by
  rcases exists_splitLast path.toList with ⟨folder, name, cut, isFolder, unslashed⟩
  intro unnamed
  have name_eq : name = [] := by
    rw [fileName, cut, splitLast_append isFolder unslashed] at unnamed
    exact String.ofList_eq_empty_iff.mp unnamed
  rw [name_eq, List.append_nil] at cut
  rcases isFolder with rfl | ⟨front, rfl⟩
  · rw [String.toList_eq_nil_iff.mp cut] at nonempty
    cases nonempty
  · rw [endsWithSlash, cut, List.getLast?_concat] at unclosed
    cases unclosed

/-! ## Extensions -/

theorem stem_append {name extension : List Char} (visible : ∃ c ∈ name, c ≠ '.')
    (unpointed : '.' ∉ extension) : stem (name ++ '.' :: extension) = name := by
  have split := List.takeWhile_append_dropWhile (p := (· == '.')) (l := name)
  have points : ∀ c ∈ name.takeWhile (· == '.'), (c == '.') = true :=
    fun c member => List.mem_takeWhile_imp (p := (· == '.')) member
  cases back : name.dropWhile (· == '.') with
  | nil =>
      rw [back, List.append_nil] at split
      rcases visible with ⟨c, member, other⟩
      exact absurd (beq_iff_eq.mp (points c (split.symm ▸ member))) other
  | cons first rest =>
      have stops : Text.Stops (· == '.') (first :: rest ++ '.' :: extension) := by
        have head := Text.stops_dropWhile (· == '.') name
        rw [back, Text.stops_cons] at head
        exact Text.stops_cons.mpr head
      have cut : (first :: rest ++ '.' :: extension).reverse.dropWhile (· != '.') =
          '.' :: (first :: rest).reverse := by
        rw [List.reverse_append, List.reverse_cons, List.append_assoc]
        apply Text.dropWhile_append
        · intro c member
          rw [bne_iff_ne]
          rintro rfl
          exact unpointed (List.mem_reverse.mp member)
        · exact Text.stops_cons.mpr rfl
      rw [back] at split
      rw [← split, List.append_assoc, stem]
      simp only [Text.takeWhile_append points stops, Text.dropWhile_append points stops, cut]
      rw [List.reverse_reverse]

/-- An extension is only cut off behind a character that is no point. -/
theorem stem_eq_self_or (name : List Char) :
    stem name = name ∨ ∃ extension, name = stem name ++ '.' :: extension ∧
      ∃ c ∈ stem name, c ≠ '.' := by
  have split := List.takeWhile_append_dropWhile (p := (· == '.')) (l := name)
  have stops := Text.stops_dropWhile (· == '.') name
  rw [stem]
  generalize name.takeWhile (· == '.') = points at split ⊢
  generalize name.dropWhile (· == '.') = rest at split stops ⊢
  have back := List.takeWhile_append_dropWhile (p := (· != '.')) (l := rest.reverse)
  have stopsBack := Text.stops_dropWhile (· != '.') rest.reverse
  cases cut : rest.reverse.dropWhile (· != '.') with
  | nil => exact .inl rfl
  | cons point shorter =>
      rw [cut] at back stopsBack
      generalize rest.reverse.takeWhile (· != '.') = extension at back
      obtain rfl : point = '.' := by simpa using Text.stops_cons.mp stopsBack
      obtain rfl : rest = shorter.reverse ++ '.' :: extension.reverse := by
        rw [← List.reverse_inj, ← back]
        simp
      refine .inr ⟨extension.reverse, by rw [List.append_assoc, split], ?_⟩
      cases front : shorter.reverse with
      | nil =>
          rw [front] at stops
          cases Text.stops_cons.mp stops
      | cons first others =>
          rw [front, List.cons_append] at stops
          have member : first ∈ shorter.reverse := front ▸ List.mem_cons_self
          exact ⟨first, List.mem_append_right points member,
            by simpa using Text.stops_cons.mp stops⟩

/-- The name in the path ends with a point and the extension, behind a character that is not a
point. -/
def HasExtension (path extension : String) : Prop :=
  ∃ front, path.toList = front ++ '.' :: extension.toList ∧ ∃ c ∈ (splitLast front).2, c ≠ '.'

theorem toList_withExtension (path extension : String) :
    (withExtension path extension).toList =
      (splitLast path.toList).1 ++ (stem (splitLast path.toList).2 ++ '.' :: extension.toList) := by
  rw [withExtension, String.toList_ofList, List.append_assoc]

theorem not_mem_stem {c : Char} {name : List Char} (absent : c ∉ name) : c ∉ stem name := by
  rcases stem_eq_self_or name with same | ⟨extension, name_eq, _⟩
  · rw [same]
    exact absent
  · exact fun member => absent (name_eq ▸ List.mem_append_left _ member)

theorem fileName_withExtension {path extension : String} (unslashed : '/' ∉ extension.toList) :
    fileName (withExtension path extension) =
      .ofList (stem (fileName path).toList ++ '.' :: extension.toList) := by
  rcases exists_splitLast path.toList with ⟨folder, name, cut, isFolder, nameUnslashed⟩
  have last : '/' ∉ stem name ++ '.' :: extension.toList := by
    simp [not_mem_stem nameUnslashed, unslashed]
  rw [fileName, fileName, toList_withExtension, cut, splitLast_append isFolder nameUnslashed,
    splitLast_append isFolder last, String.toList_ofList]

/-- The folder stays the same, so the path does when the name does. -/
theorem withExtension_eq_self_of_fileName {path extension : String}
    (unslashed : '/' ∉ extension.toList)
    (same : fileName (withExtension path extension) = fileName path) :
    withExtension path extension = path := by
  rcases exists_splitLast path.toList with ⟨folder, name, cut, isFolder, nameUnslashed⟩
  have parts_eq : splitLast path.toList = (folder, name) := by
    rw [cut, splitLast_append isFolder nameUnslashed]
  rw [fileName_withExtension unslashed, fileName, parts_eq, String.toList_ofList,
    String.ofList_inj] at same
  rw [← String.toList_inj, toList_withExtension, parts_eq, same, cut]

/-- Only a path that has the extension is kept when it is given that extension. -/
theorem withExtension_eq_self_iff {path extension : String} (unslashed : '/' ∉ extension.toList)
    (unpointed : '.' ∉ extension.toList) :
    withExtension path extension = path ↔ HasExtension path extension := by
  rcases exists_splitLast path.toList with ⟨folder, name, cut, isFolder, nameUnslashed⟩
  have parts_eq : splitLast path.toList = (folder, name) := by
    rw [cut, splitLast_append isFolder nameUnslashed]
  rw [← String.toList_inj, toList_withExtension, parts_eq]
  constructor
  · intro same
    have name_eq : stem name ++ '.' :: extension.toList = name :=
      List.append_cancel_left (same.trans cut)
    refine ⟨folder ++ stem name, by rw [List.append_assoc, same], ?_⟩
    rw [splitLast_append isFolder (not_mem_stem nameUnslashed)]
    rcases stem_eq_self_or name with whole | ⟨_, _, visible⟩
    · have longer := congrArg List.length name_eq
      rw [whole, List.length_append, List.length_cons] at longer
      omega
    · exact visible
  · rintro ⟨front, path_eq, visible⟩
    rcases exists_splitLast front with ⟨upper, shorter, frontCut, upperIsFolder, shorterUnslashed⟩
    rw [frontCut, splitLast_append upperIsFolder shorterUnslashed] at visible
    have last : '/' ∉ shorter ++ '.' :: extension.toList := by
      simp [shorterUnslashed, unslashed]
    rw [path_eq, frontCut, List.append_assoc, splitLast_append upperIsFolder last] at parts_eq
    cases parts_eq
    rw [stem_append visible unpointed, path_eq, frontCut, List.append_assoc]

end Path

end GrowthGrammar
