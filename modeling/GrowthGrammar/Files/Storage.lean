import GrowthGrammar.Files.Tree

/-!
# Storage

What a program needs of the files around it, so that it runs on a real file system as well as on a
file tree.
-/

namespace GrowthGrammar

/-- Reading gives the bytes of a file. Writing makes the folders that are missing. -/
structure Storage (m : Type → Type) where
  read : String → m (Except FileError ByteArray)
  write : String → ByteArray → m (Except FileError Unit)

/-- Storage in a file tree. -/
def FileTree.storage : Storage (StateM FileTree) where
  read path := do
    return (← get).read path
  write path content := do
    match (FileTree.write path content).run (← get) with
    | .ok _ tree =>
        set tree
        return .ok ()
    | .error error tree =>
        set tree
        return .error error

end GrowthGrammar
