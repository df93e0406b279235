import GrowthGrammar.CommandLine.Run
import GrowthGrammar.Proofs.Config.Reading
import GrowthGrammar.Proofs.Files.Alike

/-!
# Overrides are edits

A seed or a number of iterations on the command line means the same as a configuration file that is
edited to have it. The runs come to the same outcome and write the same files.
-/

namespace GrowthGrammar

open Fallible

namespace CommandLine

/-- Values that are given as overrides, if they are given. -/
def Overrides.ofValues (seed : Option Int) (iterations : Option Nat) : Overrides :=
  { seed := seed.map .value, iterations := iterations.map fun iterations => .value iterations }

theorem intOf?_value (role : Role) (given? : Option Int) :
    intOf? role (given?.map .value) = .ok given? := by
  cases given? <;> rfl

theorem randomState_withValues (config : Config) (seed : Option Int) (iterations : Option Nat)
    (entropy : Int) :
    (config.withValues seed iterations).randomState none entropy =
      config.randomState seed entropy := by
  rw [Config.randomState, Config.randomState, Option.none_or]
  rfl

theorem derive_ofValues (config : Config) (grammar : Grammar) (seed : Option Int)
    (iterations : Option Nat) (limit : Option Int) (entropy : Int) :
    derive config grammar (.ofValues seed iterations) limit entropy =
      derive (config.withValues seed iterations) grammar .none limit entropy := by
  have given (role : Role) : intOf? role (Option.none : Option (Argument Int)) = .ok .none :=
    intOf?_value role Option.none
  have iterations_eq : (iterations.map fun iterations => (Argument.value (iterations : Int))) =
      (iterations.map Int.ofNat).map .value := by
    cases iterations <;> rfl
  have count_eq : ((iterations.map Int.ofNat).getD config.iterations) =
      ((config.withValues seed iterations).iterations : Int) := by
    cases iterations <;> rfl
  simp only [derive, Overrides.ofValues, Overrides.none, iterations_eq, intOf?_value, given,
    ok_bind, randomState_withValues, count_eq, Option.getD_none]

theorem generate_withValues (config : Config) (seed : Option Int) (iterations : Option Nat)
    (commands : List Symbol) :
    generate (config.withValues seed iterations) commands = generate config commands := by
  rw [generate, generate]
  rfl

theorem renderConfig_ofValues (config : Config) (output : Argument String) (seed : Option Int)
    (iterations : Option Nat) (entropy : Int) :
    renderConfig config output (.ofValues seed iterations) entropy =
      renderConfig (config.withValues seed iterations) output .none entropy := by
  rw [renderConfig, renderConfig]
  simp only [derive_ofValues, generate_withValues, Config.grammar_withValues,
    Config.precision_withValues, Config.name_withValues]

theorem expandConfig_ofValues (config : Config) (seed : Option Int) (iterations : Option Nat)
    (entropy : Int) :
    expandConfig config (.ofValues seed iterations) entropy =
      expandConfig (config.withValues seed iterations) .none entropy := by
  rw [expandConfig, expandConfig]
  simp only [derive_ofValues, Config.grammar_withValues]

/-- A command that reads a configuration and takes overrides. -/
inductive Command.Takes (path : String) : (Overrides → Command) → Prop
  | render (output : Argument String) : Command.Takes path (.render path output)
  | expand : Command.Takes path (.expand path)

namespace Command.Takes

variable {path : String} {command : Overrides → Command}

theorem input? (takes : Takes path command) (overrides : Overrides) :
    (command overrides).input? = some path := by
  cases takes <;> rfl

theorem report_ofValues (takes : Takes path command) {content edited : List UInt8}
    {config : Config} {seed : Option Int} {iterations : Option Nat}
    (read : readConfig path content = .ok config)
    (readEdited : readConfig path edited = .ok (config.withValues seed iterations))
    (entropy : Int) :
    (command (.ofValues seed iterations)).report content entropy =
      (command .none).report edited entropy := by
  cases takes with
  | render output =>
      simp only [report, read, readEdited, ok_bind, renderConfig_ofValues]
  | expand =>
      simp only [report, read, readEdited, ok_bind, expandConfig_ofValues]

end Command.Takes

theorem readConfig_eq_ok_iff {path : String} {content : List UInt8} {config : Config} :
    readConfig path content = .ok config ↔
      ∃ value, readJson path content = .ok value ∧ Config.ofJson value = .ok config := by
  simp only [readConfig, bind_eq_ok_iff, mapError_eq_ok_iff]

/-- A run on a file tree goes on from what the file of the command holds, if it can be read. -/
theorem run_of_input {path : String} (invocation : Invocation)
    (input : invocation.command.input? = some path) (terminal : Terminal) (tree : FileTree)
    (entropy : Int) :
    (invocation.run terminal FileTree.storage entropy).run tree =
      match tree.read path with
      | .ok content =>
          ((invocation.command.report content.data.toList entropy).conclude terminal
            invocation.verbose FileTree.storage).run tree
      | .error reason => (.ofError [] (.file reason), tree) := by
  have reading : (readInput FileTree.storage invocation.command).run tree =
      ((tree.read path).map fun content => content.data.toList, tree) := by
    rw [readInput, input]
    rfl
  rw [Invocation.run, StateT.run_bind, reading]
  cases tree.read path <;> rfl

theorem run_of_read {tree : FileTree} {path : String} {content : ByteArray}
    (invocation : Invocation) (input : invocation.command.input? = some path)
    (opened : tree.read path = .ok content) (terminal : Terminal) (entropy : Int) :
    (invocation.run terminal FileTree.storage entropy).run tree =
      ((invocation.command.report content.data.toList entropy).conclude terminal
        invocation.verbose FileTree.storage).run tree := by
  rw [run_of_input invocation input, opened]

theorem overlooks_conclude (place : Place) (content edited : ByteArray) (report : Report)
    (terminal : Terminal) (verbose : Bool) :
    FileTree.Overlooks place content edited
      (report.conclude terminal verbose FileTree.storage) := by
  rw [Report.conclude]
  rcases terminal.shown report.lines with ⟨lines, _ | error⟩
  · cases report.result with
    | error error => exact .pure _
    | ok delivery =>
        refine (FileTree.Overlooks.storeFiles delivery.files).bind fun stored => ?_
        cases stored with
        | ok stored => exact .pure _
        | error error => exact .pure _
  · exact .pure _

/-- On every terminal, a command line with overrides and the same one without them on the edited
file come to the same outcome, and leave trees that differ at most in the content of that file. -/
theorem run_ofValues (terminal : Terminal) {tree : FileTree} {path : String} {place : Place}
    {content edited : ByteArray}
    {members : List (String × Json)} {config : Config} {seed : Option Int}
    {iterations : Option Nat} {command : Overrides → Command} {verbose : Bool}
    {arguments plainArguments : List String}
    (opened : tree.read path = .ok content) (placed : tree.filePlace path = .ok place)
    (read : readJson path content.data.toList = .ok (.object members))
    (accepted : Config.ofJson (.object members) = .ok config)
    (readEdited : readJson path edited.data.toList =
      .ok (.object (Config.edit seed iterations members)))
    (takes : Command.Takes path command)
    (given : Invocation.read terminal.customs arguments =
      .ok { verbose, command := command (.ofValues seed iterations) })
    (plain : Invocation.read terminal.customs plainArguments =
      .ok { verbose, command := command .none })
    (entropy : Int) :
    ∃ outcome after afterEdited,
      (terminal.run FileTree.storage entropy arguments).run tree = (outcome, after) ∧
      (terminal.run FileTree.storage entropy plainArguments).run (tree.put place (.file edited)) =
        (outcome, afterEdited) ∧
      FileTree.Alike place content edited after afterEdited := by
  simp only [Terminal.run, given, plain]
  have configRead : readConfig path content.data.toList = .ok config :=
    readConfig_eq_ok_iff.mpr ⟨_, read, accepted⟩
  have editedRead : readConfig path edited.data.toList =
      .ok (config.withValues seed iterations) := by
    refine readConfig_eq_ok_iff.mpr ⟨_, readEdited, ?_⟩
    rw [Config.ofJson_object_eq_ok_iff] at accepted ⊢
    exact accepted.edit seed iterations
  have found := FileTree.file_of_read placed opened
  have openedEdited := FileTree.read_put placed opened edited
  have runGiven := run_of_read { verbose, command := command (.ofValues seed iterations) }
    (takes.input? _) opened terminal entropy
  have runPlain := run_of_read { verbose, command := command .none } (takes.input? _) openedEdited
    terminal entropy
  rw [takes.report_ofValues configRead editedRead] at runGiven
  have concluded := overlooks_conclude place content edited
    ((command .none).report edited.data.toList entropy) terminal verbose tree _
    (FileTree.alike_put found)
  rcases ended : (((command .none).report edited.data.toList entropy).conclude terminal verbose
    FileTree.storage).run tree with ⟨outcome, after⟩
  rcases endedEdited : (((command .none).report edited.data.toList entropy).conclude terminal
    verbose FileTree.storage).run (tree.put place (.file edited)) with
    ⟨outcomeEdited, afterEdited⟩
  rw [ended, endedEdited] at concluded
  rcases concluded with ⟨rfl, alike⟩
  exact ⟨outcome, after, afterEdited, runGiven.trans ended, runPlain.trans endedEdited, alike⟩

def seededText : String :=
  "\x7b\"axiom\": \"A\", \"rules\": \"A -> A l\", \"seed\": 7\x7d"

def zeroedText : String :=
  "\x7b\"axiom\": \"A\", \"rules\": \"A -> A l\", \"seed\": 0, \"iterations\": 0\x7d"

def seededTree : FileTree :=
  (FileTree.empty ["w"]).put ["w", "c.json"] (.file seededText.toUTF8)

/-- The seed is replaced and a number of iterations is put in, both by zero. -/
theorem run_ofValues_of_zeros :
    ∃ outcome after afterEdited,
      (run FileTree.storage 5 ["expand", "c.json", "--seed", "0", "--iterations=0"]).run
        seededTree = (outcome, after) ∧
      (run FileTree.storage 5 ["expand", "c.json"]).run
        (seededTree.put ["w", "c.json"] (.file zeroedText.toUTF8)) = (outcome, afterEdited) ∧
      FileTree.Alike ["w", "c.json"] seededText.toUTF8 zeroedText.toUTF8 after afterEdited := by
  have opened : seededTree.read "c.json" = .ok seededText.toUTF8 := by decide +kernel
  have placed : seededTree.filePlace "c.json" = .ok ["w", "c.json"] := by decide +kernel
  have read : readJson "c.json" seededText.toUTF8.data.toList = .ok (.object
      [("axiom", .string "A"), ("rules", .string "A -> A l"), ("seed", .int 7)]) := by
    with_unfolding_all rfl
  have accepted : (Config.ofJson (.object
      [("axiom", .string "A"), ("rules", .string "A -> A l"), ("seed", .int 7)])).isOk = true := by
    decide +kernel
  rcases exists_ok_of_isOk accepted with ⟨config, accepted⟩
  have readEdited : readJson "c.json" zeroedText.toUTF8.data.toList =
      .ok (.object (Config.edit (some 0) (some 0)
        [("axiom", .string "A"), ("rules", .string "A -> A l"), ("seed", .int 7)])) := by
    with_unfolding_all rfl
  have given : Invocation.read .early ["expand", "c.json", "--seed", "0", "--iterations=0"] =
      .ok { verbose := false, command := .expand "c.json" (.ofValues (some 0) (some 0)) } := by
    decide +kernel
  have plain : Invocation.read .early ["expand", "c.json"] =
      .ok { verbose := false, command := .expand "c.json" .none } := by
    decide +kernel
  exact run_ofValues .recorded opened placed read accepted readEdited .expand given plain 5

end CommandLine

end GrowthGrammar
