import GrowthGrammar.Text.Utf8

/-!
# Paths

The text of a path, its parts, and the place that it denotes below a current folder.
-/

namespace GrowthGrammar

namespace Path

def isAbsolute (path : String) : Bool :=
  path.toList.head? == some '/'

/-- A path with a slash at its end can only denote a folder. -/
def endsWithSlash (path : String) : Bool :=
  path.toList.getLast? == some '/'

/-- The surrogates in a path that stand for no byte. Those for the upper half of the bytes do. -/
def unpaired? (path : String) : Option Text.UnpairedError :=
  Text.unpairedFrom? (fun code => 0xdc80 ≤ code && code ≤ 0xdcff) 0 (Text.items path.toList)

/-- A surrogate in a path stands for one byte, if for any. -/
def byteCount (path : String) : Nat :=
  (Text.items path.toList).foldl
    (fun count item => count + (item.char?.map Char.utf8Size).getD 1) 0

def hasNul (path : String) : Bool :=
  path.toList.contains '\x00'

/-- A path is told to the system with a NUL behind it, in at most 4096 bytes. -/
def isTooLong (path : String) : Bool :=
  4096 ≤ byteCount path

def isLongName (name : String) : Bool :=
  255 < byteCount name

/-- The texts between the slashes of a path. -/
def pieces : List Char → List (List Char)
  | [] => [[]]
  | c :: rest =>
      if c = '/' then [] :: pieces rest
      else
        match pieces rest with
        | [] => [[c]]
        | first :: others => (c :: first) :: others

/-- The parts of a path; slashes in a row count as one. -/
def parts (path : String) : List String :=
  ((pieces path.toList).filter fun piece => !piece.isEmpty).map String.ofList

example : pieces "a//b".toList = ["a".toList, [], "b".toList] := by decide

/-- The last part of a path, behind all slashes, and what stands in front of it. -/
def splitLast (path : List Char) : List Char × List Char :=
  let last := (path.reverse.takeWhile (· != '/')).reverse
  (path.take (path.length - last.length), last)

def fileName (path : String) : String :=
  .ofList (splitLast path.toList).2

/-- A name up to its last point; points at its start do not count. -/
def stem (name : List Char) : List Char :=
  let points := name.takeWhile (· == '.')
  let rest := name.dropWhile (· == '.')
  match rest.reverse.dropWhile (· != '.') with
  | _ :: shorter => points ++ shorter.reverse
  | [] => name

/-- The path with the extension of its last part, if it has one, replaced by another. -/
def withExtension (path extension : String) : String :=
  let (folder, last) := splitLast path.toList
  .ofList (folder ++ stem last ++ '.' :: extension.toList)

example : splitLast "a.b/c".toList = ("a.b/".toList, "c".toList) := by decide

example : stem "a.tar.gz".toList = "a.tar".toList ∧ stem ".hidden".toList = ".hidden".toList := by
  decide

end Path

/-- A place in a tree of folders: the names that lead to it from the top. -/
abbrev Place := List String

namespace Place

/-- The absolute path of a place. -/
def path : Place → String
  | [] => "/"
  | place => .join (place.map fun name => "/" ++ name)

/-- Follow one part of a path, without a look at what is there. -/
def follow (place : Place) (part : String) : Place :=
  if part = "." then place
  else if part = ".." then place.dropLast
  else place ++ [part]

/-- Where a path starts. -/
def start (current : Place) (path : String) : Place :=
  if Path.isAbsolute path then [] else current

/-- The place that a path denotes when each of its parts but the last is an existing folder. -/
def ofPath (current : Place) (path : String) : Place :=
  (Path.parts path).foldl follow (start current path)

end Place

end GrowthGrammar
