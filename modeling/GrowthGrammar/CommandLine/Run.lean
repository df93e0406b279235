import GrowthGrammar.CommandLine.Arguments
import GrowthGrammar.CommandLine.Usage
import GrowthGrammar.Config.Random
import GrowthGrammar.Delivery
import GrowthGrammar.Rewrite
import GrowthGrammar.Text.Utf8
import GrowthGrammar.Turtle.Generation

/-!
# Runs

What each command does. A command reads at most one file, and then is a function of its content: it
prints lines, and either fails or has files to deliver. Only the delivery changes anything, and only
a terminal that has no encoding for a line can keep a command from it.
-/

namespace GrowthGrammar

namespace CommandLine

inductive RunError
  | config (error : ConfigError)
  | integerTooLarge
  | limit (fault : Json.Fault)
  | undecodable (error : Text.Utf8Error)
  | parse (error : ParseError)
  | derivation (error : DerivationError)
  | turtle (error : TurtleError)
  | draw (error : DrawError)
  | void (role : Role)
  | file (error : FileError)
  deriving DecidableEq, Repr

namespace RunError

/-- The headings of errors that users are told of; all others end the program. -/
def heading? : RunError → Option String
  | config _ => some "Config error"
  | parse _ | derivation (.rewrite (.eval _)) | derivation (.expansion _) => some "Grammar error"
  | file (.fault ..) => some "File error"
  | _ => none

def message : RunError → String
  | config error => error.message
  | integerTooLarge => "int too large to convert to float"
  | limit fault => fault.text
  | undecodable error => error.message
  | parse error => error.message
  | derivation error => error.message
  | turtle error => error.message
  | draw error => error.message
  | void role => role.message
  | file error => error.message

def ofConfig : ConfigFailure → RunError
  | .invalid error => config error
  | .integerTooLarge => RunError.integerTooLarge

def ofRandom : RandomConfig.Failure → RunError
  | .draw error => RunError.draw error
  | .config failure => ofConfig failure
  | .grammar error => RunError.parse error

end RunError

/-- What a command comes to. The lines are printed also when it fails. -/
structure Report where
  lines : List String
  result : Except RunError Delivery

namespace Report

def ofResult (result : Except RunError Delivery) : Report :=
  { lines := [], result }

end Report

/-! Stages that the commands share. -/

def readJson (path : String) (content : List UInt8) : Except RunError Json := do
  let chars ← (Text.decodeUtf8 content).mapError .undecodable
  (Json.read (Text.unifyLineEnds chars)).mapError fun (error : Json.ReadError) =>
    if error.fault.isLimit then .limit error.fault else .config (.invalidJson path error)

def readConfig (path : String) (content : List UInt8) : Except RunError Config := do
  (Config.ofJson (← readJson path content)).mapError .ofConfig

/-- An integer that may be given; it must not be void. -/
def intOf? (role : Role) (given? : Option (Argument Int)) : Except RunError (Option Int) :=
  given?.mapM fun given => (given.get role).mapError .void

/-- The commands that the grammar of a configuration derives. -/
def derive (config : Config) (grammar : Grammar) (overrides : Overrides) (limit : Option Int)
    (entropy : Int) : Except RunError (List Symbol) := do
  let state := config.randomState (← intOf? .seed overrides.seed) entropy
  let iterations := (← intOf? .iterations overrides.iterations).getD config.iterations
  (expand grammar.rules Twister.source limit iterations grammar.start state).1.mapError .derivation

def generate (config : Config) (commands : List Symbol) :
    Except RunError (Generation × List Mesh) :=
  match (Turtle.generate commands []).run (.new config.defaults) with
  | .ok generation turtle => .ok (generation, (turtle.sceneOf generation).meshes.toList)
  | .error error _ => .error (.turtle error)

/-! The commands. -/

def cameraNotice (generation : Generation) : Notice :=
  { topic := "lsystem3d.cli"
    text := "camera target: (" ++
      ", ".intercalate (generation.target.toList.map Number.shortest) ++ ")" }

def renderConfig (config : Config) (output : Argument String) (overrides : Overrides)
    (entropy : Int) : Except RunError Delivery := do
  let grammar ← config.grammar.mapError .parse
  let commands ← derive config grammar overrides none entropy
  let (generation, meshes) ← generate config commands
  let output ← (output.get .path).mapError .void
  let delivery ← (Delivery.ofMeshes meshes output config.precision config.name).mapError .config
  return { delivery with notices := delivery.notices ++ [cameraNotice generation] }

def expandConfig (config : Config) (overrides : Overrides) (entropy : Int) :
    Except RunError (List Symbol) := do
  let grammar ← config.grammar.mapError .parse
  derive config grammar overrides none entropy

/-- A dry run derives no word with more symbols. -/
def dryRunLimit : Nat := 100000

def settingText (setting : Setting) (value : Float) : String :=
  setting.name ++ "=" ++ Number.shortest value

def summary (config : Config) (grammar : Grammar) : List String :=
  let settings := config.settings.mergeSort fun first second =>
    decide (first.1.name ≤ second.1.name)
  ["name: " ++ config.name,
    "axiom symbols: " ++ toString grammar.start.length,
    "iterations: " ++ toString config.iterations,
    "productions: " ++ toString grammar.rules.size] ++
  (match grammar.rules.stochasticNames with
    | [] => []
    | names => ["stochastic symbols: " ++ ", ".intercalate names]) ++
  ["seed: " ++ (match config.seed with
    | some seed => toString seed
    | none => "none")] ++
  (match settings with
    | [] => []
    | settings => ["defaults: " ++ " ".intercalate (settings.map fun (setting, value) =>
        settingText setting value)])

def meshReport (config : Config) (commands : List Symbol) : Report :=
  match generate config commands with
  | .error error => .ofResult (.error error)
  | .ok (_, meshes) =>
      { lines := ["meshes: " ++ toString meshes.length]
        result := if meshes.isEmpty then .error (.config .noGeometry) else .ok .nothing }

/-- Derive and build a configuration to see whether it leads to anything. A word that grows too
long is only warned of. -/
def dryRun (config : Config) (grammar : Grammar) (entropy : Int) : Report :=
  match derive config grammar .none (some dryRunLimit) entropy with
  | .error (.derivation (.expansion _)) =>
      { lines := ["warning: expansion exceeds " ++ toString dryRunLimit ++
          " symbols; skipping geometry check"]
        result := .ok .nothing }
  | .error error => .ofResult (.error error)
  | .ok commands =>
      let report := meshReport config commands
      { report with lines := ("symbols: " ++ toString commands.length) :: report.lines }

def validateConfig (config : Config) (entropy : Int) : Report :=
  match config.grammar with
  | .error error => .ofResult (.error (.parse error))
  | .ok grammar =>
      let report := dryRun config grammar entropy
      { report with lines := summary config grammar ++ report.lines }

def randomConfig (output : String) (seed : Option (Argument Int)) (entropy : Int) :
    Except RunError Delivery := do
  let seed ← intOf? .seed seed
  match (RandomConfig.generate Twister.source).run (.ofSeed (seed.getD entropy)) with
  | .ok value _ => return .ofJson value output
  | .error failure _ => throw (.ofRandom failure)

/-! Commands as a whole. -/

/-- The file that a command reads. -/
def Command.input? : Command → Option String
  | .render config _ _ | .expand config _ | .validate config => some config
  | .random _ _ => none

/-- What a command comes to, given the content of the file that it reads. -/
def Command.report (command : Command) (content : List UInt8) (entropy : Int) : Report :=
  match command with
  | .render path output overrides =>
      .ofResult do renderConfig (← readConfig path content) output overrides entropy
  | .expand path overrides =>
      match (do expandConfig (← readConfig path content) overrides entropy) with
      | .ok commands => { lines := [symbolsText commands], result := .ok .nothing }
      | .error error => .ofResult (.error error)
  | .validate path =>
      match readConfig path content with
      | .ok config => validateConfig config entropy
      | .error error => .ofResult (.error error)
  | .random output seed => .ofResult (randomConfig output seed entropy)

/-- The ways in which a run ends: with an exit code, or with an error that nobody expects. `usage`
says that the command line itself has ended it. -/
structure Outcome where
  output : String
  errors : String
  status : Except RunError Nat
  usage : Bool

namespace Outcome

def linesText (lines : List String) : String :=
  .join (lines.map fun line => line ++ "\n")

def ofStop : Stop → Outcome
  | .help scope => { output := Usage.help scope, errors := "", status := .ok 0, usage := true }
  | .refused scope refusal =>
      { output := "", errors := Usage.complaint scope refusal, status := .ok 2, usage := true }

def ofError (lines : List String) (error : RunError) : Outcome :=
  match error.heading? with
  | some heading =>
      { output := linesText lines
        errors := heading ++ ": " ++ error.message ++ "\n"
        status := .ok 2
        usage := false }
  | none => { output := linesText lines, errors := "", status := .error error, usage := false }

def success (lines : List String) (notices : List Notice) : Outcome :=
  { output := linesText lines
    errors := linesText (notices.map Notice.line)
    status := .ok 0
    usage := false }

end Outcome

def readInput [Monad m] (storage : Storage m) (command : Command) :
    m (Except FileError (List UInt8)) := do
  match command.input? with
  | none => return .ok []
  | some path => return (← storage.read path).map fun content => content.data.toList

/-- What a run takes command lines from and prints lines to. A line that cannot be encoded is
refused. -/
structure Terminal where
  customs : Customs
  refuses? : String → Option Text.UnpairedError

namespace Terminal

/-- A run that is recorded prints to a text, which needs no encoding. -/
def recorded : Terminal :=
  { customs := .early, refuses? := fun _ => none }

/-- Lines are encoded like files. -/
def system : Terminal :=
  { customs := .late, refuses? := Text.unpaired? }

/-- The lines up to the first that is refused, and what is wrong with that one. -/
def shown (terminal : Terminal) : List String → List String × Option Text.UnpairedError
  | [] => ([], none)
  | line :: rest =>
      match terminal.refuses? line with
      | some error => ([], some error)
      | none =>
          let (lines, error?) := terminal.shown rest
          (line :: lines, error?)

end Terminal

/-- Print the lines of a command, and then deliver what it has come to. -/
def Report.conclude [Monad m] (report : Report) (terminal : Terminal) (verbose : Bool)
    (storage : Storage m) : m Outcome := do
  match terminal.shown report.lines with
  | (lines, some error) => return .ofError lines (.file (.unencodable error))
  | (lines, none) =>
      match report.result with
      | .error error => return .ofError lines error
      | .ok delivery =>
          match ← delivery.store storage with
          | .error error => return .ofError lines (.file error)
          | .ok () => return .success lines (if verbose then delivery.notices else [])

/-- Carry out an invocation. -/
def Invocation.run [Monad m] (invocation : Invocation) (terminal : Terminal) (storage : Storage m)
    (entropy : Int) : m Outcome := do
  match ← readInput storage invocation.command with
  | .error error => return .ofError [] (.file error)
  | .ok content =>
      (invocation.command.report content entropy).conclude terminal invocation.verbose storage

/-- Carry out a command line. `entropy` stands in for a seed where none is given. -/
def Terminal.run [Monad m] (terminal : Terminal) (storage : Storage m) (entropy : Int)
    (arguments : List String) : m Outcome := do
  match Invocation.read terminal.customs arguments with
  | .ok invocation => invocation.run terminal storage entropy
  | .error stop => return .ofStop stop

/-- Carry out a command line, and record what it prints. -/
def run [Monad m] (storage : Storage m) (entropy : Int) (arguments : List String) : m Outcome :=
  Terminal.recorded.run storage entropy arguments

end CommandLine

end GrowthGrammar
