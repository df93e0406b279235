import GrowthGrammar.Text.Quoted
import GrowthGrammar.Text.Utf8

/-!
# File errors
-/

namespace GrowthGrammar

/-- Why a file or folder cannot be used. Faults that only a real file system has are told by its own
number and text. -/
inductive FileFault
  | missing
  | occupied
  | notFolder
  | isFolder
  | nameTooLong
  | other (number : Nat) (text : String)
  deriving DecidableEq, Repr

namespace FileFault

def number : FileFault → Nat
  | missing => 2
  | .occupied => 17
  | notFolder => 20
  | isFolder => 21
  | nameTooLong => 36
  | other number _ => number

def text : FileFault → String
  | missing => "No such file or directory"
  | .occupied => "File exists"
  | notFolder => "Not a directory"
  | isFolder => "Is a directory"
  | nameTooLong => "File name too long"
  | other _ text => text

end FileFault

/-- A fault is told with the path that it is about. A path that holds a NUL is none, and neither a
path nor a content can be one that has no bytes. -/
inductive FileError
  | fault (reason : FileFault) (path : String)
  | nulInPath
  | unencodable (error : Text.UnpairedError)
  deriving DecidableEq, Repr

def FileError.message : FileError → String
  | .fault reason path =>
      "[Errno " ++ toString reason.number ++ "] " ++ reason.text ++ ": " ++ Text.quote path
  | nulInPath => "embedded null byte"
  | unencodable error => error.message

end GrowthGrammar
