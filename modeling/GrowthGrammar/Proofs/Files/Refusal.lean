import GrowthGrammar.Delivery
import GrowthGrammar.Proofs.Fallible

/-!
# Refusals

A file system answers with a fault, but some paths and texts never get there: a path that holds a
NUL is none, and an unpaired surrogate has no bytes. This is all that can be wrong besides faults.
-/

namespace GrowthGrammar

open Fallible

/-- The error is one that a file system answers with. -/
def FileError.IsFault (error : FileError) : Prop :=
  ∃ reason path, error = .fault reason path

/-- Why a path is none that a file system can be asked for. -/
inductive Path.Refused (path : String) : FileError → Prop
  | unencodable {error : Text.UnpairedError} : Path.unpaired? path = some error →
      Path.Refused path (.unencodable error)
  | nul : Path.unpaired? path = none → Path.hasNul path = true → Path.Refused path .nulInPath

theorem Path.Refused.not_isFault {path : String} {error : FileError}
    (refused : Path.Refused path error) : ¬ error.IsFault := by
  rintro ⟨reason, other, rfl⟩
  cases refused

/-- What keeps a text file from being written besides faults: a folder on the way to it that cannot
be asked for, its own path, or its text. -/
inductive TextFile.Spoiled (current : Place) (file : TextFile) : FileError → Prop
  | folder {place : Place} {error : FileError} :
      place <+: (Place.ofPath current file.path).dropLast → Path.Refused place.path error →
      TextFile.Spoiled current file error
  | path {error : FileError} : Path.Refused file.path error → TextFile.Spoiled current file error
  | text {error : Text.UnpairedError} : (TextFile.encodable file.pieces).2 = some error →
      TextFile.Spoiled current file (.unencodable error)

theorem TextFile.Spoiled.not_isFault {current : Place} {file : TextFile} {error : FileError}
    (spoiled : file.Spoiled current error) : ¬ error.IsFault := by
  cases spoiled with
  | folder _ refused => exact refused.not_isFault
  | path refused => exact refused.not_isFault
  | text unpaired =>
      rintro ⟨reason, path, equal⟩
      cases equal

namespace FileTree

theorem checkPath_of_refused {path : String} {error : FileError}
    (refused : Path.Refused path error) : checkPath path = .error error := by
  cases refused with
  | unencodable unpaired => rw [checkPath, unpaired]
  | nul paired hasNul => rw [checkPath, paired, hasNul]; rfl

theorem refused_of_checkPath {path : String} {error : FileError}
    (checked : checkPath path = .error error) : Path.Refused path error ∨ error.IsFault := by
  rw [checkPath] at checked
  cases paired : Path.unpaired? path with
  | some unpaired =>
      rw [paired] at checked
      cases checked
      exact .inl (.unencodable paired)
  | none =>
      rw [paired] at checked
      dsimp only at checked
      split at checked
      · next hasNul =>
          cases checked
          exact .inl (.nul paired hasNul)
      · split at checked
        · cases checked
          exact .inr ⟨_, _, rfl⟩
        · cases checked

/-! Reading. -/

theorem read_of_refused (tree : FileTree) {path : String} {error : FileError}
    (refused : Path.Refused path error) : tree.read path = .error error := by
  rw [read, checkPath_of_refused refused]
  rfl

theorem refused_of_read {tree : FileTree} {path : String} {error : FileError}
    (read_eq : tree.read path = .error error) : Path.Refused path error ∨ error.IsFault := by
  rw [read] at read_eq
  cases checked : checkPath path with
  | error reason =>
      rw [checked] at read_eq
      cases read_eq
      exact refused_of_checkPath checked
  | ok accepted =>
      rw [checked] at read_eq
      change (tree.readAt path).mapError (fun fault => FileError.fault fault path) = _ at read_eq
      cases found : tree.readAt path with
      | error fault =>
          rw [found] at read_eq
          cases read_eq
          exact .inr ⟨fault, path, rfl⟩
      | ok content =>
          rw [found] at read_eq
          cases read_eq

/-! Writing. The current folder stays the same all along, so it is known from the start which places
are asked for. -/

theorem current_of_writeAt {tree after : FileTree} {path : String} {content : ByteArray}
    (written : tree.writeAt path content = .ok after) : after.current = tree.current := by
  rcases bind_eq_ok_iff.mp written with ⟨place, _, written⟩
  split at written
  · cases written
  · rcases bind_eq_ok_iff.mp written with ⟨held?, _, written⟩
    split at written
    · cases written
    · cases written
      rfl

section

variable {current : Place} {reason : FileError → Prop}

/-- A run that ends well, with a fault, or with an error for one of the reasons. -/
inductive Guarded (current : Place) (reason : FileError → Prop) :
    EStateM.Result FileError FileTree α → Prop
  | ok {value : α} {after : FileTree} : after.current = current →
      Guarded current reason (.ok value after)
  | fault {error : FileError} {after : FileTree} : after.current = current → error.IsFault →
      Guarded current reason (.error error after)
  | refused {error : FileError} {after : FileTree} : after.current = current → reason error →
      Guarded current reason (.error error after)

/-- An action is guarded if all of its runs are that start with the current folder. -/
def Guards (current : Place) (reason : FileError → Prop) (action : EStateM FileError FileTree α) :
    Prop :=
  ∀ before : FileTree, before.current = current → Guarded current reason (action.run before)

namespace Guards

theorem bind {action : EStateM FileError FileTree α} {next : α → EStateM FileError FileTree β}
    (guards : Guards current reason action)
    (continues : ∀ value, Guards current reason (next value)) :
    Guards current reason (action >>= next) := by
  intro before start
  have ended := guards before start
  rw [EStateM.run_bind]
  generalize action.run before = result at ended ⊢
  cases ended with
  | ok kept => exact continues _ _ kept
  | fault kept isFault => exact .fault kept isFault
  | refused kept refused => exact .refused kept refused

theorem get {next : FileTree → EStateM FileError FileTree α}
    (continues : ∀ tree : FileTree, tree.current = current → Guards current reason (next tree)) :
    Guards current reason (MonadState.get >>= next) :=
  fun before start => continues before start before start

theorem checkPath {path : String}
    (refuses : ∀ error, Path.Refused path error → reason error) :
    Guards current reason (MonadExcept.ofExcept (FileTree.checkPath path)) := by
  intro before start
  cases checked : FileTree.checkPath path with
  | ok accepted => exact .ok start
  | error error =>
      rcases refused_of_checkPath checked with refused | isFault
      · exact .refused start (refuses error refused)
      · exact .fault start isFault

theorem throwFault (fault : FileFault) (path : String) :
    Guards current reason (throw (.fault fault path) : EStateM FileError FileTree α) :=
  fun _ start => .fault start ⟨fault, path, rfl⟩

theorem makeFoldersFrom {place : Place} {parts : List String}
    (refuses : ∀ other error, other <+: place ++ parts → Path.Refused (Place.path other) error →
      reason error) :
    Guards current reason (FileTree.makeFoldersFrom place parts) := by
  induction parts generalizing place with
  | nil => exact fun _ start => .ok start
  | cons part parts induction =>
      rw [List.append_cons] at refuses
      have rest : Guards current reason (FileTree.makeFoldersFrom (place ++ [part]) parts) :=
        induction refuses
      refine (checkPath fun error => refuses _ error (List.prefix_append _ _)).bind fun _ =>
        get fun tree kept => ?_
      dsimp only
      split
      · exact rest
      · exact bind (fun _ _ => .ok kept) fun _ => rest
      · -- A file is in the way. The path below it, if there is one, is looked at before the fault.
        match parts, refuses with
        | [], _ => exact throwFault _ _
        | below :: others, refuses =>
            rw [List.append_cons] at refuses
            exact (checkPath fun error => refuses _ error (List.prefix_append _ _)).bind fun _ =>
              throwFault _ _
      · exact throwFault _ _

theorem write (file : TextFile) (content : ByteArray) :
    Guards current (file.Spoiled current) (FileTree.write file.path content) := by
  refine bind ?_ fun _ => (checkPath fun error => .path).bind fun _ => get fun tree kept => ?_
  · refine get fun tree kept => makeFoldersFrom fun place error onTheWay refused => ?_
    rw [kept] at onTheWay
    exact .folder onTheWay refused
  · intro before start
    cases written : tree.writeAt file.path content with
    | error fault => exact .fault start ⟨fault, file.path, rfl⟩
    | ok after => exact .ok ((current_of_writeAt written).trans kept)

end Guards

end

end FileTree

/-! Storing files. -/

theorem FileTree.run_storage_write (path : String) (content : ByteArray) (before : FileTree) :
    (FileTree.storage.write path content).run before =
      match (FileTree.write path content).run before with
      | .ok _ after => (.ok ⟨⟩, after)
      | .error error after => (.error error, after) := by
  simp only [FileTree.storage, StateT.run_bind, StateT.run_get]
  dsimp only [Bind.bind, Pure.pure]
  cases (FileTree.write path content).run before <;> rfl

/-- The current folder is kept, and there is a reason for any error. -/
structure Stored (current : Place) (reason : FileError → Prop)
    (ended : Except FileError Unit × FileTree) : Prop where
  current : ended.2.current = current
  error : ∀ error, ended.1 = .error error → reason error ∨ error.IsFault

theorem TextFile.stored (file : TextFile) (before : FileTree) :
    Stored before.current (file.Spoiled before.current)
      ((file.store FileTree.storage).run before) := by
  have guarded := FileTree.Guards.write file (Text.encode (TextFile.encodable file.pieces).1)
    before rfl
  rw [TextFile.store]
  dsimp only
  rw [StateT.run_bind, FileTree.run_storage_write]
  generalize (FileTree.write file.path _).run before = result at guarded ⊢
  cases guarded with
  | fault kept isFault =>
      refine ⟨kept, fun error equal => .inr ?_⟩
      cases equal
      exact isFault
  | refused kept spoiled =>
      refine ⟨kept, fun error equal => .inl ?_⟩
      cases equal
      exact spoiled
  | ok kept =>
      -- The start of the text is written even if the rest has no bytes.
      cases unpaired : (TextFile.encodable file.pieces).2 with
      | none => exact ⟨kept, fun error equal => nomatch equal⟩
      | some reason =>
          refine ⟨kept, fun error equal => .inl ?_⟩
          cases equal
          exact .text unpaired

theorem Delivery.stored (files : List TextFile) (before : FileTree) :
    Stored before.current (fun error => ∃ file ∈ files, file.Spoiled before.current error)
      ((Delivery.storeFiles FileTree.storage files).run before) := by
  induction files generalizing before with
  | nil => exact ⟨rfl, fun error equal => nomatch equal⟩
  | cons file files induction =>
      have first := file.stored before
      rw [Delivery.storeFiles, StateT.run_bind]
      rcases ended : (file.store FileTree.storage).run before with ⟨result, between⟩
      rw [ended] at first
      cases result with
      | error error =>
          refine ⟨first.current, fun other equal => ?_⟩
          cases equal
          exact (first.error error rfl).imp_left fun spoiled => ⟨file, List.mem_cons_self, spoiled⟩
      | ok stored =>
          have rest := induction between
          have kept : between.current = before.current := first.current
          rw [kept] at rest
          refine ⟨rest.current, fun error equal => (rest.error error equal).imp_left ?_⟩
          rintro ⟨other, member, spoiled⟩
          exact ⟨other, List.mem_cons_of_mem file member, spoiled⟩

end GrowthGrammar
