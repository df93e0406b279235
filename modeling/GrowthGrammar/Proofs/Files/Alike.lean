import GrowthGrammar.Delivery
import GrowthGrammar.Proofs.Fallible

/-!
# Trees that differ in one file

Where a file is matters to what is written besides it, but what it holds does not. So writing keeps
two trees alike that differ in the content of one file only, and fails in both in the same way.
-/

namespace GrowthGrammar

open Fallible

namespace FileTree

theorem entry?_put {tree : FileTree} {place : Place} (below : place ≠ []) (entry : Entry)
    (other : Place) :
    FileTree.entry? (tree.put place entry) other =
      if other = place then some entry else tree.entry? other := by
  cases other with
  | nil => rw [if_neg (Ne.symm below)]; rfl
  | cons name names =>
      change (Association.put tree.entries place entry).lookup (name :: names) = _
      rw [Association.lookup_put]
      simp only [beq_iff_eq]
      rfl

/-- The second tree is the first, or becomes of it when its file at the place is edited. -/
def Alike (place : Place) (content edited : ByteArray) (first second : FileTree) : Prop :=
  second = first ∨
    first.entry? place = some (.file content) ∧ second = first.put place (.file edited)

section

variable {tree : FileTree} {place : Place} {content edited : ByteArray}

theorem ne_nil_of_file (found : tree.entry? place = some (.file content)) : place ≠ [] := by
  rintro rfl
  cases found

theorem isSome_lookup_of_file (found : tree.entry? place = some (.file content)) :
    (tree.entries.lookup place).isSome := by
  cases place with
  | nil => cases found
  | cons name names => exact Option.isSome_of_eq_some found

theorem entry?_put_self (found : tree.entry? place = some (.file content)) (edited : ByteArray) :
    FileTree.entry? (tree.put place (.file edited)) place = some (.file edited) := by
  rw [entry?_put (ne_nil_of_file found), if_pos rfl]

theorem lookUp_of_file (found : tree.entry? place = some (.file content)) :
    tree.lookUp place =
      if place.getLast?.any Path.isLongName then .error .nameTooLong
      else .ok (some (.file content)) := by
  rw [lookUp, found]

/-! The content of a file decides nothing on the way to another place. -/

theorem lookUp_put_of_ne (found : tree.entry? place = some (.file content)) (edited : ByteArray)
    {other : Place} (apart : other ≠ place) :
    (tree.put place (.file edited)).lookUp other = tree.lookUp other := by
  rw [lookUp, lookUp, entry?_put (ne_nil_of_file found), if_neg apart]

theorem enter_put (found : tree.entry? place = some (.file content)) (edited : ByteArray)
    (start : Place) (parts : List String) :
    (tree.put place (.file edited)).enter start parts = tree.enter start parts := by
  induction parts generalizing start with
  | nil => rfl
  | cons part parts induction =>
      rw [enter, enter]
      by_cases same : start.follow part = place
      · -- A file is in the way, whatever it holds.
        rw [same, lookUp_of_file found, lookUp_of_file (entry?_put_self found edited)]
        split <;> rfl
      · rw [lookUp_put_of_ne found edited same]
        simp only [induction]

theorem filePlace_put (found : tree.entry? place = some (.file content)) (edited : ByteArray)
    (path : String) :
    (tree.put place (.file edited)).filePlace path = tree.filePlace path := by
  simp only [filePlace, enter_put found edited]
  rfl

/-! Reading the file itself. -/

theorem read_eq_ok_iff {path : String} (placed : tree.filePlace path = .ok place) :
    tree.read path = .ok content ↔
      checkPath path = .ok () ∧ tree.lookUp place = .ok (some (.file content)) ∧
        Path.endsWithSlash path = false := by
  rw [read, bind_eq_ok_iff]
  constructor
  · rintro ⟨⟨⟩, checked, opened⟩
    rw [mapError_eq_ok_iff, readAt, placed, ok_bind] at opened
    rcases bind_eq_ok_iff.mp opened with ⟨held?, looked, opened⟩
    refine ⟨checked, ?_⟩
    match held? with
    | none | some .folder => cases opened
    | some (.file _) =>
        cases slash : Path.endsWithSlash path with
        | true =>
            rw [slash] at opened
            cases opened
        | false =>
            rw [slash] at opened
            cases opened
            exact ⟨looked, rfl⟩
  · rintro ⟨checked, looked, slash⟩
    refine ⟨⟨⟩, checked, ?_⟩
    rw [mapError_eq_ok_iff, readAt, placed, ok_bind, looked, ok_bind, slash]
    rfl

theorem entry?_of_lookUp {held? : Option Entry} (looked : tree.lookUp place = .ok held?) :
    tree.entry? place = held? := by
  rw [lookUp] at looked
  split at looked
  · cases looked
  · exact Except.ok.inj looked

theorem file_of_read {path : String} (placed : tree.filePlace path = .ok place)
    (opened : tree.read path = .ok content) : tree.entry? place = some (.file content) :=
  entry?_of_lookUp ((read_eq_ok_iff placed).mp opened).2.1

theorem read_put {path : String} (placed : tree.filePlace path = .ok place)
    (opened : tree.read path = .ok content) (edited : ByteArray) :
    (tree.put place (.file edited)).read path = .ok edited := by
  rcases (read_eq_ok_iff placed).mp opened with ⟨checked, looked, slash⟩
  have found := entry?_of_lookUp looked
  rw [read_eq_ok_iff ((filePlace_put found edited path).trans placed)]
  refine ⟨checked, ?_, slash⟩
  rw [lookUp_of_file found] at looked
  rw [lookUp_of_file (entry?_put_self found edited)]
  split at looked
  · cases looked
  · next short => rw [if_neg short]

/-! Trees stay alike. -/

theorem Alike.refl (tree : FileTree) : Alike place content edited tree tree :=
  Or.inl rfl

theorem alike_put (found : tree.entry? place = some (.file content)) :
    Alike place content edited tree (tree.put place (.file edited)) :=
  Or.inr ⟨found, rfl⟩

/-- What is put at another place is put beside the file; what is put at its place replaces it. -/
theorem alike_put_put (found : tree.entry? place = some (.file content)) {other : Place}
    (below : other ≠ []) (entry : Entry) :
    Alike place content edited (tree.put other entry)
      ((tree.put place (.file edited)).put other entry) := by
  by_cases same : other = place
  · subst same
    left
    rw [put, put, put, Association.put_put]
  · right
    constructor
    · rw [entry?_put below, if_neg (Ne.symm same), found]
    · have moved := Association.put_comm same (isSome_lookup_of_file found) (.file edited) entry
      rw [put, put, put, put, moved]

/-- Both attempts to put or write a file fail, or both lead to trees that are alike. -/
inductive AlikeTries (place : Place) (content edited : ByteArray) :
    Except FileFault FileTree → Except FileFault FileTree → Prop
  | error (fault : FileFault) : AlikeTries place content edited (.error fault) (.error fault)
  | ok {first second : FileTree} : Alike place content edited first second →
      AlikeTries place content edited (.ok first) (.ok second)

theorem putFile_alike (found : tree.entry? place = some (.file content)) (other : Place)
    (bytes : ByteArray) :
    AlikeTries place content edited (tree.putFile other bytes)
      ((tree.put place (.file edited)).putFile other bytes) := by
  rw [putFile, putFile]
  by_cases same : other = place
  · subst same
    rw [lookUp_of_file found, lookUp_of_file (entry?_put_self found edited)]
    by_cases long : other.getLast?.any Path.isLongName
    · rw [if_pos long, if_pos long]
      exact .error .nameTooLong
    · rw [if_neg long, if_neg long]
      exact .ok (alike_put_put found (ne_nil_of_file found) (.file bytes))
  · rw [lookUp_put_of_ne found edited same]
    match looked : tree.lookUp other with
    | .error fault => exact .error fault
    | .ok (some .folder) => exact .error .isFolder
    | .ok none | .ok (some (.file _)) =>
        have below : other ≠ [] := by
          rintro rfl
          cases looked
        exact .ok (alike_put_put found below (.file bytes))

theorem writeAt_alike (found : tree.entry? place = some (.file content)) (edited : ByteArray)
    (path : String) (bytes : ByteArray) :
    AlikeTries place content edited (tree.writeAt path bytes)
      ((tree.put place (.file edited)).writeAt path bytes) := by
  rw [writeAt, writeAt, filePlace_put found]
  cases tree.filePlace path with
  | error fault => exact .error fault
  | ok other =>
      cases Path.endsWithSlash path with
      | true => exact .error .isFolder
      | false => exact putFile_alike found other bytes

/-- The results agree, and the trees behind them are alike. -/
inductive AlikeEnds (place : Place) (content edited : ByteArray) :
    EStateM.Result FileError FileTree α → EStateM.Result FileError FileTree α → Prop
  | ok {value : α} {first second : FileTree} : Alike place content edited first second →
      AlikeEnds place content edited (.ok value first) (.ok value second)
  | error {error : FileError} {first second : FileTree} :
      Alike place content edited first second →
      AlikeEnds place content edited (.error error first) (.error error second)

/-- The action makes no use of what the file holds. -/
def Blind (place : Place) (content edited : ByteArray) (action : EStateM FileError FileTree α) :
    Prop :=
  ∀ first second, Alike place content edited first second →
    AlikeEnds place content edited (action.run first) (action.run second)

theorem AlikeEnds.refl (result : EStateM.Result FileError FileTree α) :
    AlikeEnds place content edited result result := by
  cases result with
  | ok value after => exact .ok (.refl after)
  | error error after => exact .error (.refl after)

namespace Blind

theorem bind {action : EStateM FileError FileTree α} {next : α → EStateM FileError FileTree β}
    (blind : Blind place content edited action)
    (continues : ∀ value, Blind place content edited (next value)) :
    Blind place content edited (action >>= next) := by
  intro first second alike
  rw [EStateM.run_bind, EStateM.run_bind]
  have ended := blind first second alike
  generalize action.run first = result at ended ⊢
  generalize action.run second = other at ended ⊢
  cases ended with
  | ok after => exact continues _ _ _ after
  | error after => exact .error after

/-- Trees that are the same need no proof. -/
theorem of_put {action : EStateM FileError FileTree α}
    (each : ∀ tree, tree.entry? place = some (.file content) →
      AlikeEnds place content edited (action.run tree)
        (action.run (tree.put place (.file edited)))) :
    Blind place content edited action := by
  rintro first second (rfl | ⟨found, rfl⟩)
  · exact .refl _
  · exact each first found

theorem ofExcept (result : Except FileError α) :
    Blind place content edited (MonadExcept.ofExcept result) := by
  intro first second alike
  cases result with
  | ok value => exact .ok alike
  | error error => exact .error alike

theorem throw (error : FileError) :
    Blind place content edited (MonadExcept.throw error : EStateM FileError FileTree α) :=
  fun _ _ alike => .error alike

theorem makeFoldersFrom (start : Place) (parts : List String) :
    Blind place content edited (makeFoldersFrom start parts) := by
  induction parts generalizing start with
  | nil => exact fun _ _ alike => .ok alike
  | cons part parts induction =>
      refine (ofExcept _).bind fun _ => of_put fun tree found => ?_
      rw [EStateM.run_bind, EStateM.run_bind, EStateM.run_get, EStateM.run_get]
      dsimp only
      by_cases same : start ++ [part] = place
      · subst same
        -- The folder cannot be made where a file is.
        rw [lookUp_of_file found, lookUp_of_file (entry?_put_self found edited)]
        by_cases long : (start ++ [part]).getLast?.any Path.isLongName
        · rw [if_pos long, if_pos long]
          exact .error (alike_put found)
        · rw [if_neg long, if_neg long]
          cases parts with
          | nil => exact .error (alike_put found)
          | cons below rest =>
              exact (ofExcept _).bind (fun _ => throw _) _ _ (alike_put found)
      · rw [lookUp_put_of_ne found edited same]
        split
        · exact induction _ _ _ (alike_put found)
        · exact induction _ _ _ (alike_put_put found (List.concat_ne_nil _ _) .folder)
        · cases parts with
          | nil => exact .error (alike_put found)
          | cons below rest =>
              exact (ofExcept _).bind (fun _ => throw _) _ _ (alike_put found)
        · exact .error (alike_put found)

theorem makeFolderOf (path : String) : Blind place content edited (makeFolderOf path) :=
  of_put fun _ found => makeFoldersFrom _ _ _ _ (alike_put found)

theorem write (path : String) (bytes : ByteArray) :
    Blind place content edited (write path bytes) := by
  refine (makeFolderOf path).bind fun _ => (ofExcept _).bind fun _ => of_put fun tree found => ?_
  rw [EStateM.run_bind, EStateM.run_bind, EStateM.run_get, EStateM.run_get]
  dsimp only
  have tries := writeAt_alike found edited path bytes
  generalize tree.writeAt path bytes = result at tries ⊢
  generalize (tree.put place (.file edited)).writeAt path bytes = other at tries ⊢
  cases tries with
  | error fault => exact .error (alike_put found)
  | ok alike => exact .ok alike

end Blind

/-! The storage of a tree hands out its errors as results. -/

/-- The action comes to the same result without a look at what the file holds. -/
def Overlooks (place : Place) (content edited : ByteArray) (action : StateM FileTree α) : Prop :=
  ∀ first second, Alike place content edited first second →
    (action.run first).1 = (action.run second).1 ∧
      Alike place content edited (action.run first).2 (action.run second).2

namespace Overlooks

theorem pure (value : α) : Overlooks place content edited (Pure.pure value) :=
  fun _ _ alike => ⟨rfl, alike⟩

theorem bind {action : StateM FileTree α} {next : α → StateM FileTree β}
    (overlooks : Overlooks place content edited action)
    (continues : ∀ value, Overlooks place content edited (next value)) :
    Overlooks place content edited (action >>= next) := by
  intro first second alike
  rcases overlooks first second alike with ⟨value_eq, between⟩
  rw [StateT.run_bind, StateT.run_bind]
  dsimp only [Bind.bind]
  rw [value_eq]
  exact continues _ _ _ between

theorem write (path : String) (bytes : ByteArray) :
    Overlooks place content edited (storage.write path bytes) := by
  intro first second alike
  have ended := Blind.write path bytes first second alike
  simp only [storage, StateT.run_bind, StateT.run_get]
  dsimp only [Bind.bind, Pure.pure]
  generalize (FileTree.write path bytes).run first = result at ended ⊢
  generalize (FileTree.write path bytes).run second = other at ended ⊢
  cases ended with
  | ok after => exact ⟨rfl, after⟩
  | error after => exact ⟨rfl, after⟩

theorem storeFile (file : TextFile) : Overlooks place content edited (file.store storage) := by
  refine (write file.path _).bind fun result => ?_
  split
  · exact pure _
  · exact pure _
  · exact pure _

theorem storeFiles (files : List TextFile) :
    Overlooks place content edited (Delivery.storeFiles storage files) := by
  induction files with
  | nil => exact pure _
  | cons file files induction =>
      refine (storeFile file).bind fun result => ?_
      cases result with
      | ok stored => exact induction
      | error error => exact pure _

end Overlooks

end

end FileTree

end GrowthGrammar
