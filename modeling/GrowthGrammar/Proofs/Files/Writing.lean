import GrowthGrammar.Proofs.Files.Alike
import GrowthGrammar.Proofs.Files.Naming
import GrowthGrammar.Proofs.Files.Refusal

/-!
# What writing leaves

A file that is written can be read at the same path afterwards. All else that was there before stays
as it was, so files that are written one after the other are all there in the end unless two of them
have the same place.
-/

namespace GrowthGrammar

open Fallible

namespace FileTree

section

variable {tree first second before after : FileTree}

theorem lookUp_eq_ok_iff {place : Place} {held? : Option Entry} :
    tree.lookUp place = .ok held? ↔
      place.getLast?.any Path.isLongName = false ∧ tree.entry? place = held? := by
  rw [lookUp]
  cases place.getLast?.any Path.isLongName with
  | true => simp
  | false => simp

/-! ## The way to a file

A place is found again as long as the folders on the way to it are there. -/

theorem filePlace_eq_ok_iff {path : String} {place : Place} :
    tree.filePlace path = .ok place ↔ path.isEmpty = false ∧
      ∃ name folder, (Path.parts path).getLast? = some name ∧ name ≠ "." ∧ name ≠ ".." ∧
        tree.enter (Place.start tree.current path) (Path.parts path).dropLast = .ok folder ∧
        place = folder ++ [name] := by
  rw [filePlace]
  cases path.isEmpty with
  | true => simp [throw, throwThe, MonadExceptOf.throw, bind, Except.bind]
  | false =>
      cases (Path.parts path).getLast? with
      | none => simp [throw, throwThe, MonadExceptOf.throw]
      | some name =>
          cases tree.enter (Place.start tree.current path) (Path.parts path).dropLast with
          | error fault => simp [bind, Except.bind]
          | ok folder =>
              by_cases current : name = "."
              · simp [bind, Except.bind, current, throw, throwThe, MonadExceptOf.throw]
              · by_cases above : name = ".."
                · simp [bind, Except.bind, above, throw, throwThe, MonadExceptOf.throw]
                · simp [bind, Except.bind, current, above, pure, Except.pure, eq_comm]

structure KeepsFolders (first second : FileTree) : Prop where
  current : second.current = first.current
  folder : ∀ {place}, first.entry? place = some .folder → second.entry? place = some .folder

theorem KeepsFolders.enter (keeps : KeepsFolders first second) {start place : Place}
    {parts : List String} (entered : first.enter start parts = .ok place) :
    second.enter start parts = .ok place := by
  induction parts generalizing start with
  | nil => exact entered
  | cons part parts induction =>
      rw [FileTree.enter] at entered ⊢
      rcases bind_eq_ok_iff.mp entered with ⟨held?, looked, entered⟩
      rcases held? with _ | _ | _
      · cases entered
      · rcases lookUp_eq_ok_iff.mp looked with ⟨short, found⟩
        have kept : second.lookUp (start.follow part) = .ok (some .folder) :=
          lookUp_eq_ok_iff.mpr ⟨short, keeps.folder found⟩
        rw [kept]
        exact induction entered
      · cases entered

theorem KeepsFolders.filePlace (keeps : KeepsFolders first second) {path : String} {place : Place}
    (placed : first.filePlace path = .ok place) : second.filePlace path = .ok place := by
  rw [filePlace_eq_ok_iff] at placed ⊢
  rcases placed with ⟨nonempty, name, folder, last, notCurrent, notAbove, entered, place_eq⟩
  rw [← keeps.current] at entered
  exact ⟨nonempty, name, folder, last, notCurrent, notAbove, keeps.enter entered, place_eq⟩

/-- Paths with different names do not lead to the same place. -/
theorem filePlace_ne {path other : String} {place otherPlace : Place}
    (placed : tree.filePlace path = .ok place) (otherPlaced : tree.filePlace other = .ok otherPlace)
    (apart : (Path.parts path).getLast? ≠ (Path.parts other).getLast?) : place ≠ otherPlace := by
  rcases filePlace_eq_ok_iff.mp placed with ⟨_, name, folder, last, _, _, _, rfl⟩
  rcases filePlace_eq_ok_iff.mp otherPlaced with ⟨_, other, otherFolder, otherLast, _, _, _, rfl⟩
  intro same
  have names := congrArg List.getLast? same
  rw [List.getLast?_concat, List.getLast?_concat] at names
  exact apart (last.trans (names.trans otherLast.symm))

/-! ## Folders that are made -/

/-- All that was there before is there. -/
structure Extends (before after : FileTree) : Prop where
  current : after.current = before.current
  entry? : ∀ {place entry}, before.entry? place = some entry → after.entry? place = some entry

theorem Extends.refl (tree : FileTree) : Extends tree tree :=
  ⟨rfl, id⟩

theorem Extends.trans (earlier : Extends first second) (later : Extends second after) :
    Extends first after :=
  ⟨later.current.trans earlier.current, fun found => later.entry? (earlier.entry? found)⟩

theorem extends_put {place : Place} (below : place ≠ []) (missing : tree.entry? place = none)
    (entry : Entry) : Extends tree (tree.put place entry) := by
  refine ⟨rfl, fun {other found} kept => ?_⟩
  rw [entry?_put below, if_neg, kept]
  rintro rfl
  rw [missing] at kept
  cases kept

theorem run_ofExcept_eq_ok_iff {result : Except FileError α} {value : α} :
    (MonadExcept.ofExcept result : EStateM FileError FileTree α).run before = .ok value after ↔
      result = .ok value ∧ after = before := by
  cases result with
  | error error =>
      have failed : (MonadExcept.ofExcept (.error error) :
          EStateM FileError FileTree α).run before = .error error before := rfl
      simp [failed]
  | ok other =>
      have done : (MonadExcept.ofExcept (.ok other) :
          EStateM FileError FileTree α).run before = .ok other before := rfl
      simp [done, eq_comm]

theorem extends_makeFoldersFrom {place : Place} {parts : List String}
    (made : (makeFoldersFrom place parts).run before = .ok ⟨⟩ after) : Extends before after := by
  induction parts generalizing place before with
  | nil =>
      cases made
      exact .refl _
  | cons part parts induction =>
      rcases run_bind_eq_ok_iff.mp made with ⟨⟨⟩, between, checked, asked⟩
      obtain rfl := (run_ofExcept_eq_ok_iff.mp checked).2
      rcases run_bind_eq_ok_iff.mp asked with ⟨held, _, got, looked⟩
      cases got
      split at looked
      · exact induction looked
      · next missing =>
          rcases run_bind_eq_ok_iff.mp looked with ⟨⟨⟩, grown, put, below⟩
          cases put
          exact (extends_put (List.concat_ne_nil _ _) (lookUp_eq_ok_iff.mp missing).2 .folder).trans
            (induction below)
      · split at looked
        · cases looked
        · rcases run_bind_eq_ok_iff.mp looked with ⟨⟨⟩, _, _, failed⟩
          cases failed
      · cases looked

/-! ## Files that are written -/

/-- What a run that writes a file leaves. -/
structure Wrote (path : String) (content : ByteArray) (place : Place) (before after : FileTree) :
    Prop where
  current : after.current = before.current
  placed : after.filePlace path = .ok place
  read : after.read path = .ok content
  noFolder : before.entry? place ≠ some .folder
  entry? : ∀ {other entry}, other ≠ place → before.entry? other = some entry →
    after.entry? other = some entry

variable {path : String} {content : ByteArray} {place : Place}

theorem Wrote.keepsFolders (wrote : Wrote path content place before after) :
    KeepsFolders before after where
  current := wrote.current
  folder := by
    intro other found
    apply wrote.entry? _ found
    rintro rfl
    exact wrote.noFolder found

/-- A file that was there before is there with what it holds, unless it has the place of the one
that is written. -/
theorem Wrote.read_earlier (wrote : Wrote path content place before after) {other : String}
    {otherPlace : Place} {bytes : ByteArray} (placed : before.filePlace other = .ok otherPlace)
    (held : before.read other = .ok bytes) (apart : otherPlace ≠ place) :
    after.read other = .ok bytes := by
  rcases (read_eq_ok_iff placed).mp held with ⟨checked, looked, unclosed⟩
  rcases lookUp_eq_ok_iff.mp looked with ⟨short, found⟩
  rw [read_eq_ok_iff (wrote.keepsFolders.filePlace placed)]
  exact ⟨checked, lookUp_eq_ok_iff.mpr ⟨short, wrote.entry? apart found⟩, unclosed⟩

theorem eq_put_of_putFile (put : tree.putFile place content = .ok after) :
    place.getLast?.any Path.isLongName = false ∧ tree.entry? place ≠ some .folder ∧
      after = tree.put place (.file content) := by
  rcases bind_eq_ok_iff.mp put with ⟨held?, looked, put⟩
  rcases lookUp_eq_ok_iff.mp looked with ⟨short, rfl⟩
  split at put
  · cases put
  · next noFolder =>
      cases put
      exact ⟨short, noFolder, rfl⟩

theorem wrote_writeAt {grown : FileTree} (grows : Extends before grown)
    (checked : checkPath path = .ok ()) (written : grown.writeAt path content = .ok after) :
    ∃ place, Wrote path content place before after := by
  rcases bind_eq_ok_iff.mp written with ⟨place, placed, stored⟩
  cases unclosed : Path.endsWithSlash path with
  | true =>
      rw [unclosed] at stored
      cases stored
  | false =>
      rw [unclosed] at stored
      rcases eq_put_of_putFile stored with ⟨short, noFolder, rfl⟩
      have below : place ≠ [] := by
        rintro rfl
        exact noFolder rfl
      have keeps : KeepsFolders grown (grown.put place (.file content)) := by
        refine ⟨rfl, fun {other} found => ?_⟩
        rw [entry?_put below, if_neg, found]
        rintro rfl
        exact noFolder found
      have found := keeps.filePlace placed
      refine ⟨place, grows.current, found, (read_eq_ok_iff found).mpr ⟨checked, ?_, unclosed⟩,
        fun folder => noFolder (grows.entry? folder), fun apart held => ?_⟩
      · exact lookUp_eq_ok_iff.mpr ⟨short, by rw [entry?_put below, if_pos rfl]⟩
      · rw [entry?_put below, if_neg apart, grows.entry? held]

theorem wrote_of_write (written : (write path content).run before = .ok ⟨⟩ after) :
    ∃ place, Wrote path content place before after := by
  rcases run_bind_eq_ok_iff.mp written with ⟨⟨⟩, grown, made, opened⟩
  rcases run_bind_eq_ok_iff.mp made with ⟨_, _, got, folders⟩
  cases got
  have grows := extends_makeFoldersFrom folders
  rcases run_bind_eq_ok_iff.mp opened with ⟨⟨⟩, between, passed, stored⟩
  rcases run_ofExcept_eq_ok_iff.mp passed with ⟨checked, rfl⟩
  rcases run_bind_eq_ok_iff.mp stored with ⟨_, _, got, stored⟩
  cases got
  split at stored
  · next tree put =>
      cases stored
      exact wrote_writeAt grows checked put
  · cases stored

end

end FileTree

/-! ## Text files -/

namespace TextFile

theorem encodable_of_clean {pieces : List String} (clean : (encodable pieces).2 = none) :
    (encodable pieces).1 = .join pieces := by
  induction pieces with
  | nil => rfl
  | cons piece rest induction =>
      rw [encodable] at clean ⊢
      cases unpaired : Text.unpaired? piece with
      | some error =>
          rw [unpaired] at clean
          cases clean
      | none =>
          rw [unpaired] at clean
          rw [String.join_cons, ← induction clean]

/-- A text file that is stored is written as a whole. -/
theorem wrote_of_store {file : TextFile} {before after : FileTree}
    (stored : (file.store FileTree.storage).run before = (.ok ⟨⟩, after)) :
    ∃ place,
      FileTree.Wrote file.path (Text.encode (String.join file.pieces)) place before after := by
  rw [store] at stored
  dsimp only at stored
  rw [StateT.run_bind, FileTree.run_storage_write] at stored
  cases written : (FileTree.write file.path (Text.encode (encodable file.pieces).1)).run before with
  | error error between =>
      rw [written] at stored
      cases stored
  | ok done between =>
      rw [written] at stored
      cases clean : (encodable file.pieces).2 with
      | some error =>
          rw [clean] at stored
          cases stored
      | none =>
          rw [clean] at stored
          cases stored
          rw [← encodable_of_clean clean]
          exact FileTree.wrote_of_write written

end TextFile

/-- Files are stored when the first one is, and the others are behind it. -/
theorem Delivery.exists_store_of_storeFiles {file : TextFile} {rest : List TextFile}
    {before after : FileTree}
    (stored : (storeFiles FileTree.storage (file :: rest)).run before = (.ok ⟨⟩, after)) :
    ∃ middle, (file.store FileTree.storage).run before = (.ok ⟨⟩, middle) ∧
      (storeFiles FileTree.storage rest).run middle = (.ok ⟨⟩, after) := by
  rw [storeFiles, StateT.run_bind] at stored
  rcases first : (file.store FileTree.storage).run before with ⟨result, middle⟩
  rw [first] at stored
  cases result with
  | error error => cases stored
  | ok done => exact ⟨middle, rfl, stored⟩

end GrowthGrammar
