import GrowthGrammar.Config.Basic
import GrowthGrammar.Files.Storage
import GrowthGrammar.Json.Write
import GrowthGrammar.Wavefront

/-!
# Deliveries

Files to be written, and what is told about them when they are. All that can be wrong with a scene
or a value is found out before, so a delivery can fail at the file system only, or at a surrogate.
-/

namespace GrowthGrammar

/-- A line of the log, which only a verbose run shows. -/
structure Notice where
  topic : String
  text : String
  deriving DecidableEq, Repr

def Notice.line (notice : Notice) : String :=
  "INFO " ++ notice.topic ++ ": " ++ notice.text

/-- A file and the pieces that its text is written in. -/
structure TextFile where
  path : String
  pieces : List String
  deriving DecidableEq, Repr

namespace TextFile

/-- The pieces up to the first that cannot be encoded, and what is wrong with that one. -/
def encodable : List String → String × Option Text.UnpairedError
  | [] => ("", none)
  | piece :: rest =>
      match Text.unpaired? piece with
      | some error => ("", some error)
      | none =>
          let (text, error?) := encodable rest
          (piece ++ text, error?)

/-- Write a file as far as it can be encoded. -/
def store [Monad m] (file : TextFile) (storage : Storage m) : m (Except FileError Unit) := do
  let (text, error?) := encodable file.pieces
  match ← storage.write file.path (Text.encode text), error? with
  | .ok (), none => return .ok ()
  | .ok (), some error => return .error (.unencodable error)
  | .error error, _ => return .error error

end TextFile

/-- Files are written in order. -/
structure Delivery where
  files : List TextFile
  notices : List Notice
  deriving DecidableEq, Repr

namespace Delivery

def nothing : Delivery :=
  { files := [], notices := [] }

/-- A scene as an object file and the material file beside it. -/
def ofMeshes (meshes : List Mesh) (path : String) (precision : Int) (title : String) :
    Except ConfigError Delivery :=
  if Config.isPrecision precision then
    let places := precision.toNat
    .ok
      { files :=
          [{ path, pieces := [Wavefront.objectText meshes places title path] },
            { path := Wavefront.materialPath path
              pieces := [Wavefront.materialText meshes places] }]
        notices :=
          [{ topic := "lsystem3d.export"
             text := "wrote " ++ toString meshes.length ++ " meshes (" ++
               toString (Wavefront.vertexCount meshes) ++ " vertices) to " ++ path }] }
  else .error .precision

/-- The file of a JSON value. -/
def ofJson (value : Json) (path : String) : Delivery :=
  { files := [{ path, pieces := Json.filePieces value }], notices := [] }

/-- Write files until one cannot be written. -/
def storeFiles [Monad m] (storage : Storage m) : List TextFile → m (Except FileError Unit)
  | [] => return .ok ()
  | file :: rest => do
      match ← file.store storage with
      | .ok () => storeFiles storage rest
      | .error error => return .error error

def store [Monad m] (delivery : Delivery) (storage : Storage m) : m (Except FileError Unit) :=
  storeFiles storage delivery.files

end Delivery

end GrowthGrammar
