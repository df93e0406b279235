import GrowthGrammar.CommandLine.Run

/-!
# The program

The command line on the real file system. Runs without a seed take one from the system.
-/

namespace GrowthGrammar

/-- The system may name the file that an error is about; else it is the file asked for. -/
def FileError.ofSystem (path : String) (error : IO.Error) : FileError :=
  let named (name? : Option String) : String := (name?.map Text.spelled).getD path
  match error with
  | .noFileOrDirectory name _ _ => .fault .missing (named name)
  | .alreadyExists name? _ _ => .fault .occupied (named name?)
  | .inappropriateType name? number text =>
      let fault : FileFault :=
        if number = 20 then .notFolder
        else if number = 21 then .isFolder
        else .other number.toNat text
      .fault fault (named name?)
  | .invalidArgument name? number text =>
      .fault (if number = 36 then .nameTooLong else .other number.toNat text) (named name?)
  | .permissionDenied name? number text => .fault (.other number.toNat text) (named name?)
  | error => .fault (.other 5 (toString error)) path

/-- The system is asked with the characters that the path spells. -/
def attempt (path : String) (action : String → IO α) : IO (Except FileError α) := do
  match FileTree.checkPath path with
  | .error error => return .error error
  | .ok () =>
      try
        return .ok (← action (Text.plain path))
      catch error =>
        return .error (.ofSystem path error)

/-- The files of the system, with paths taken from a current folder. -/
def systemStorage (current : Place) : Storage IO where
  read path := attempt path fun name => IO.FS.readBinFile name
  write path content := attempt path fun name => do
    IO.FS.createDirAll (Text.plain (Place.path (Place.ofPath current path).dropLast))
    IO.FS.writeBinFile name content

def systemEntropy : IO Int := do
  let bytes ← IO.getRandomBytes 32
  return bytes.toList.foldl (fun total byte => total * 256 + byte.toNat) (0 : Nat)

/-- Messages are shown with the codes of surrogates in the place of these. -/
def messageText (text : String) : String :=
  .ofList ((Text.items text.toList).flatMap fun item =>
    match item with
    | .char c => [c]
    | .surrogate code _ => '\\' :: 'u' :: Text.hexadecimalDigits 4 code)

/-- Unexpected errors end the program with exit code one. -/
def runProgram (arguments : List String) : IO UInt32 := do
  let current := Path.parts (Text.spelled (← IO.currentDir).toString)
  let outcome ← CommandLine.Terminal.system.run (systemStorage current) (← systemEntropy)
    (arguments.map Text.spelled)
  IO.print (Text.plain outcome.output)
  IO.eprint (messageText outcome.errors)
  match outcome.status with
  | .ok code => return code.toUInt32
  | .error error =>
      IO.eprintln (messageText error.message)
      return 1

end GrowthGrammar

def main (arguments : List String) : IO UInt32 :=
  GrowthGrammar.runProgram arguments
