import GrowthGrammar.Association
import GrowthGrammar.Files.Error
import GrowthGrammar.Files.Path

/-!
# File trees

Folders and files below a common top, with one folder as the current one. The top is always a
folder.
-/

namespace GrowthGrammar

inductive Entry
  | folder
  | file (content : ByteArray)

/-- Entries are listed by place, in the order in which they were made. -/
structure FileTree where
  current : Place
  entries : List (Place × Entry)

namespace FileTree

/-- The tree that has a current folder and the folders above it, and nothing else. -/
def empty (current : Place) : FileTree :=
  { current, entries := (List.range current.length).map fun depth =>
      (current.take (depth + 1), .folder) }

def entry? (tree : FileTree) : Place → Option Entry
  | [] => some .folder
  | place => tree.entries.lookup place

def put (tree : FileTree) (place : Place) (entry : Entry) : FileTree :=
  { tree with entries := Association.put tree.entries place entry }

/-- What is at a place whose last name may be too long for one. -/
def lookUp (tree : FileTree) (place : Place) : Except FileFault (Option Entry) :=
  if place.getLast?.any Path.isLongName then .error .nameTooLong else .ok (tree.entry? place)

/-- Paths that are refused without a look at the tree. -/
def checkPath (path : String) : Except FileError Unit :=
  match Path.unpaired? path with
  | some error => .error (.unencodable error)
  | none =>
      if Path.hasNul path then .error .nulInPath
      else if Path.isTooLong path then .error (.fault .nameTooLong path)
      else .ok ()

/-! Following a path. Unlike the plain `Place.ofPath`, every part that is passed has to be there. -/

def enter (tree : FileTree) (place : Place) : List String → Except FileFault Place
  | [] => .ok place
  | part :: parts => do
      let next := place.follow part
      match ← tree.lookUp next with
      | none => throw .missing
      | some (.file _) => throw .notFolder
      | some .folder => tree.enter next parts

/-- The place of a file, in a folder that is there. A path that can only denote a folder denotes no
file. -/
def filePlace (tree : FileTree) (path : String) : Except FileFault Place := do
  if path.isEmpty then throw .missing
  match (Path.parts path).getLast? with
  | none => throw .isFolder
  | some last =>
      let folder ← tree.enter (Place.start tree.current path) (Path.parts path).dropLast
      if last = "." || last = ".." then throw .isFolder
      return folder ++ [last]

def readAt (tree : FileTree) (path : String) : Except FileFault ByteArray := do
  match ← tree.lookUp (← tree.filePlace path) with
  | none => throw .missing
  | some .folder => throw .isFolder
  | some (.file content) =>
      if Path.endsWithSlash path then throw .notFolder
      return content

def read (tree : FileTree) (path : String) : Except FileError ByteArray := do
  checkPath path
  (tree.readAt path).mapError fun fault => .fault fault path

/-- A file that is there already is replaced, but not a folder. -/
def putFile (tree : FileTree) (place : Place) (content : ByteArray) :
    Except FileFault FileTree := do
  match ← tree.lookUp place with
  | some .folder => throw .isFolder
  | _ => return tree.put place (.file content)

def writeAt (tree : FileTree) (path : String) (content : ByteArray) :
    Except FileFault FileTree := do
  let place ← tree.filePlace path
  if Path.endsWithSlash path then throw .isFolder
  tree.putFile place content

/-! Making folders. -/

/-- Make the folders that lead from a place to the parts below it. -/
def makeFoldersFrom (place : Place) : List String → EStateM FileError FileTree Unit
  | [] => return
  | part :: parts => do
      let next := place ++ [part]
      MonadExcept.ofExcept (checkPath next.path)
      let tree ← get
      match tree.lookUp next with
      | .ok (some .folder) => makeFoldersFrom next parts
      | .ok none => do
          set (tree.put next .folder)
          makeFoldersFrom next parts
      | .ok (some (.file _)) =>
          match parts with
          | [] => throw (.fault .occupied next.path)
          | below :: _ => do
              let path := Place.path (next ++ [below])
              MonadExcept.ofExcept (checkPath path)
              throw (.fault .notFolder path)
      | .error fault => throw (.fault fault next.path)

/-- Make the folder that a path leads to, with all folders above it. -/
def makeFolderOf (path : String) : EStateM FileError FileTree Unit := do
  makeFoldersFrom [] (Place.ofPath (← get).current path).dropLast

/-- Write a file, into a folder that is made if need be. -/
def write (path : String) (content : ByteArray) : EStateM FileError FileTree Unit := do
  makeFolderOf path
  MonadExcept.ofExcept (checkPath path)
  match (← get).writeAt path content with
  | .ok tree => set tree
  | .error fault => throw (.fault fault path)

end FileTree

end GrowthGrammar
