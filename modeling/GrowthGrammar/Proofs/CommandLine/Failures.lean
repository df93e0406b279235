import GrowthGrammar.Proofs.CommandLine.Results
import GrowthGrammar.Proofs.CommandLine.Terminals
import GrowthGrammar.Proofs.Files.Refusal

/-!
# How commands fail

A command that reads a configuration fails when it reads, when it prints, in one of its stages, or
when it delivers. Users are not told of some of these failures: they break the command off, and
there is a reason for each.
-/

namespace GrowthGrammar

open Fallible

namespace CommandLine

/-! Failures, and the reasons for those that break a command off. -/

/-- The error that a report ends with: when a line is refused, when the command has failed, or when
what it has come to cannot be delivered. -/
inductive Report.Fails (terminal : Terminal) (tree : FileTree) (report : Report) : RunError → Prop
  | line {error : Text.UnpairedError} : terminal.Refuses report.lines error →
      Report.Fails terminal tree report (.file (.unencodable error))
  | result {error : RunError} : terminal.Shows report.lines → report.result = .error error →
      Report.Fails terminal tree report error
  | delivery {delivery : Delivery} {reason : FileError} {after : FileTree} :
      terminal.Shows report.lines → report.result = .ok delivery →
      (delivery.store FileTree.storage).run tree = (.error reason, after) →
      Report.Fails terminal tree report (.file reason)

namespace Command

/-- The error that a command fails with, when it reads its file or at what it reports on it. -/
inductive FailsWith (terminal : Terminal) (tree : FileTree) (entropy : Int) (command : Command) :
    RunError → Prop
  | input {path : String} {reason : FileError} : command.input? = some path →
      tree.read path = .error reason → FailsWith terminal tree entropy command (.file reason)
  | report {path : String} {content : ByteArray} {error : RunError} :
      command.input? = some path → tree.read path = .ok content →
      (command.report content.data.toList entropy).Fails terminal tree error →
      FailsWith terminal tree entropy command error

/-- The file that a command reads holds a configuration with a grammar. -/
inductive Loads (tree : FileTree) (command : Command) (config : Config) (grammar : Grammar) : Prop
  | intro {path : String} {content : ByteArray} : command.input? = some path →
      tree.read path = .ok content → readConfig path content.data.toList = .ok config →
      config.grammar = .ok grammar → Loads tree command config grammar

/-- The command comes as far as to a word of symbols. -/
inductive Derives (tree : FileTree) (entropy : Int) (command : Command) (config : Config)
    (word : List Symbol) : Prop
  | intro {grammar : Grammar} : Loads tree command config grammar →
      derive config grammar command.overrides command.limit? entropy = .ok word →
      Derives tree entropy command config word

/-- What the command prints, if nothing is refused: the symbols that it derives, or the summary of a
configuration and what its dry run tells. -/
inductive Prints (tree : FileTree) (entropy : Int) (command : Command) : List String → Prop
  | word {path : String} {overrides : Overrides} {config : Config} {word : List Symbol} :
      command = .expand path overrides → Derives tree entropy command config word →
      Prints tree entropy command [symbolsText word]
  | summary {path : String} {config : Config} {grammar : Grammar} :
      command = .validate path → Loads tree command config grammar →
      Prints tree entropy command
        (summary config grammar ++ (dryRun config grammar entropy).lines)

/-- Why a command that reads a configuration breaks off, and with which error. -/
inductive BreaksOff (terminal : Terminal) (tree : FileTree) (entropy : Int) (command : Command) :
    RunError → Prop
  | path {path : String} {reason : FileError} : command.input? = some path →
      Path.Refused path reason → BreaksOff terminal tree entropy command (.file reason)
  | content {path : String} {content : ByteArray} {error : RunError} :
      command.input? = some path → tree.read path = .ok content →
      Unreadable path content.data.toList error → BreaksOff terminal tree entropy command error
  | line {lines : List String} {error : Text.UnpairedError} :
      Prints tree entropy command lines → terminal.Refuses lines error →
      BreaksOff terminal tree entropy command (.file (.unencodable error))
  | overrides {config : Config} {grammar : Grammar} {error : RunError} :
      Loads tree command config grammar → command.overrides.Void error →
      BreaksOff terminal tree entropy command error
  | word {config : Config} {word : List Symbol} {error : RunError} : command.builds = true →
      Derives tree entropy command config word → Stuck config word error →
      (∀ lines, Prints tree entropy command lines → terminal.Shows lines) →
      BreaksOff terminal tree entropy command error
  | output {path : String} {overrides : Overrides} {config : Config} {word : List Symbol}
      {built : Generation × List Mesh} : command = .render path .void overrides →
      Derives tree entropy command config word → generate config word = .ok built →
      BreaksOff terminal tree entropy command (.void .path)
  | file {path output : String} {overrides : Overrides} {config : Config} {word : List Symbol}
      {generation : Generation} {meshes : List Mesh} {delivery : Delivery} {after : FileTree}
      {file : TextFile} {reason : FileError} : command = .render path (.value output) overrides →
      Derives tree entropy command config word →
      generate config word = .ok (generation, meshes) →
      Delivery.ofMeshes meshes output config.precision config.name = .ok delivery →
      (delivery.store FileTree.storage).run tree = (.error reason, after) →
      file ∈ delivery.files → file.Spoiled tree.current reason →
      BreaksOff terminal tree entropy command (.file reason)

end Command

namespace Report

variable {terminal : Terminal} {tree : FileTree} {report : Report} {error : RunError}

theorem fails_iff_of_refuses {reason : Text.UnpairedError}
    (refuses : terminal.Refuses report.lines reason) :
    report.Fails terminal tree error ↔ error = .file (.unencodable reason) := by
  constructor
  · intro fails
    cases fails with
    | line otherRefuses => rw [refuses.unique otherRefuses]
    | result shows | delivery shows => exact absurd refuses shows.not_refuses
  · rintro rfl
    exact .line refuses

theorem fails_iff_of_error (shows : terminal.Shows report.lines) {reason : RunError}
    (result : report.result = .error reason) :
    report.Fails terminal tree error ↔ error = reason := by
  constructor
  · intro fails
    cases fails with
    | line refuses => exact absurd refuses shows.not_refuses
    | result _ failed =>
        cases result.symm.trans failed
        rfl
    | delivery _ delivered => cases result.symm.trans delivered
  · rintro rfl
    exact .result shows result

theorem fails_iff_of_ok (shows : terminal.Shows report.lines) {delivery : Delivery}
    (result : report.result = .ok delivery) :
    report.Fails terminal tree error ↔
      ∃ reason, ((delivery.store FileTree.storage).run tree).1 = .error reason ∧
        error = .file reason := by
  constructor
  · intro fails
    cases fails with
    | line refuses => exact absurd refuses shows.not_refuses
    | result _ failed => cases result.symm.trans failed
    | delivery _ delivered stored =>
        cases result.symm.trans delivered
        exact ⟨_, congrArg Prod.fst stored, rfl⟩
  · rintro ⟨reason, failed, rfl⟩
    exact .delivery shows result (Prod.ext failed rfl)

end Report

/-! A command is broken off by the failures that users are not told of. -/

theorem heading?_file_eq_none_iff {reason : FileError} :
    (RunError.file reason).heading? = none ↔ ¬ reason.IsFault := by
  cases reason with
  | fault reason path => exact iff_of_false nofun fun noFault => noFault ⟨reason, path, rfl⟩
  | nulInPath | unencodable => exact iff_of_true rfl nofun

namespace Command

section

variable {tree : FileTree} {command : Command} {path : String} {content : ByteArray}
  {entropy : Int}

/-! The lines of a command. -/

theorem prints_or_nil (input : command.input? = some path) (opened : tree.read path = .ok content)
    (entropy : Int) :
    command.Prints tree entropy (command.report content.data.toList entropy).lines ∨
      (command.report content.data.toList entropy).lines = [] := by
  cases command with
  | render => exact .inr rfl
  | expand =>
      cases input
      rw [Command.report]
      split
      · next word expanded =>
          rcases bind_eq_ok_iff.mp expanded with ⟨config, read, expanded⟩
          rcases bind_eq_ok_iff.mp expanded with ⟨grammar, parsed, derived⟩
          have parsed := mapError_eq_ok_iff.mp parsed
          exact .inl (.word rfl (.intro (.intro rfl opened read parsed) derived))
      · exact .inr rfl
  | validate =>
      cases input
      rw [Command.report]
      split
      · next config read =>
          rw [validateConfig]
          split
          · exact .inr rfl
          · next grammar parsed => exact .inl (.summary rfl (.intro rfl opened read parsed))
      · exact .inr rfl
  | random => cases input

theorem Prints.lines_eq {lines : List String} (prints : command.Prints tree entropy lines)
    (input : command.input? = some path) (opened : tree.read path = .ok content) :
    (command.report content.data.toList entropy).lines = lines := by
  cases prints with
  | word equal derives =>
      subst equal
      rcases derives with ⟨⟨otherInput, otherOpened, read, parsed⟩, derived⟩
      cases input.symm.trans otherInput
      cases opened.symm.trans otherOpened
      cases input
      rw [Command.report, read, ok_bind, expandConfig, mapError_eq_ok_iff.mpr parsed, ok_bind]
      simp only [Command.overrides, Command.limit?] at derived
      rw [derived]
  | summary equal loads =>
      subst equal
      rcases loads with ⟨otherInput, otherOpened, read, parsed⟩
      cases input.symm.trans otherInput
      cases opened.symm.trans otherOpened
      cases input
      rw [Command.report, read]
      dsimp only
      rw [validateConfig, parsed]

variable {terminal : Terminal}

theorem shows_iff (input : command.input? = some path) (opened : tree.read path = .ok content) :
    terminal.Shows (command.report content.data.toList entropy).lines ↔
      ∀ lines, command.Prints tree entropy lines → terminal.Shows lines := by
  constructor
  · intro shows lines prints
    exact prints.lines_eq input opened ▸ shows
  · intro shows
    rcases prints_or_nil input opened entropy with prints | nothing
    · exact shows _ prints
    · exact nothing ▸ terminal.shows_nil

theorem Prints.exists_input {lines : List String} (prints : command.Prints tree entropy lines) :
    ∃ path content, command.input? = some path ∧ tree.read path = .ok content := by
  rcases prints with ⟨_, ⟨input, opened, _, _⟩, _⟩ | ⟨_, ⟨input, opened, _, _⟩⟩
  · exact ⟨_, _, input, opened⟩
  · exact ⟨_, _, input, opened⟩

theorem shows_of_not_prints (input : command.input? = some path)
    (opened : tree.read path = .ok content)
    (silent : ∀ lines, ¬ command.Prints tree entropy lines) :
    terminal.Shows (command.report content.data.toList entropy).lines :=
  (shows_iff input opened).mpr fun lines prints => absurd prints (silent lines)

theorem not_prints_of_unreadable (input : command.input? = some path)
    (opened : tree.read path = .ok content) {reason : RunError}
    (unread : readConfig path content.data.toList = .error reason) {lines : List String} :
    ¬ command.Prints tree entropy lines := by
  have unloaded {config : Config} {grammar : Grammar} :
      ¬ command.Loads tree config grammar := by
    rintro ⟨otherInput, otherOpened, read, _⟩
    cases input.symm.trans otherInput
    cases opened.symm.trans otherOpened
    cases unread.symm.trans read
  rintro (⟨_, loads, _⟩ | ⟨_, loads⟩)
  · exact unloaded loads
  · exact unloaded loads

theorem not_prints_of_void {reason : RunError} (void : command.overrides.Void reason)
    {lines : List String} : ¬ command.Prints tree entropy lines := by
  rintro (⟨equal, ⟨⟨_, _, _, parsed⟩, derived⟩⟩ | ⟨equal, _⟩)
  · have breaks : Breaks (derive _ _ command.overrides command.limit? entropy) reason :=
      (breaks_derive_iff parsed).mpr void
    cases breaks.1.symm.trans derived
  · subst equal
    cases void with
    | seed given => cases given
    | iterations _ given => cases given

/-! Where a command breaks off. -/

variable {error : RunError}

/-- A stage that breaks off is the end of the command. -/
theorem failsWith_of_breaks (input : command.input? = some path)
    (opened : tree.read path = .ok content)
    (shows : terminal.Shows (command.report content.data.toList entropy).lines)
    (breaks : Breaks (command.report content.data.toList entropy).result error) :
    command.FailsWith terminal tree entropy error ∧ error.heading? = none :=
  ⟨.report input opened (.result shows breaks.1), breaks.2⟩

theorem BreaksOff.failsWith (breaksOff : command.BreaksOff terminal tree entropy error) :
    command.FailsWith terminal tree entropy error ∧ error.heading? = none := by
  cases breaksOff with
  | path input refused =>
      exact ⟨.input input (FileTree.read_of_refused tree refused),
        heading?_file_eq_none_iff.mpr refused.not_isFault⟩
  | content input opened unreadable =>
      have unread := breaks_readConfig_iff.mpr unreadable
      have silent (lines : List String) : ¬ command.Prints tree entropy lines :=
        not_prints_of_unreadable input opened unread.1
      refine failsWith_of_breaks input opened (shows_of_not_prints input opened silent) ?_
      exact (breaks_report_iff input).mpr (.inl unread)
  | line prints refuses =>
      obtain ⟨_, _, input, opened⟩ := prints.exists_input
      rw [← prints.lines_eq input opened] at refuses
      exact ⟨.report input opened (.line refuses), rfl⟩
  | overrides loads void =>
      have silent (lines : List String) : ¬ command.Prints tree entropy lines :=
        not_prints_of_void void
      rcases loads with ⟨input, opened, read, parsed⟩
      refine failsWith_of_breaks input opened (shows_of_not_prints input opened silent) ?_
      refine (breaks_report_iff input).mpr (.inr ⟨_, _, read, parsed, .inl ?_⟩)
      exact (breaks_derive_iff parsed).mpr void
  | word builds derives stuck shows =>
      rcases derives with ⟨⟨input, opened, read, parsed⟩, derived⟩
      refine failsWith_of_breaks input opened ((shows_iff input opened).mpr shows) ?_
      refine (breaks_report_iff input).mpr (.inr ⟨_, _, read, parsed, .inr ?_⟩)
      exact ⟨_, derived, builds, .inl (breaks_generate_iff.mpr stuck)⟩
  | output equal derives generated =>
      subst equal
      rcases derives with ⟨⟨input, opened, read, parsed⟩, derived⟩
      cases input
      refine failsWith_of_breaks rfl opened terminal.shows_nil ?_
      refine (breaks_report_iff rfl).mpr (.inr ⟨_, _, read, parsed, .inr ?_⟩)
      exact ⟨_, derived, rfl, .inr ⟨_, _, generated, rfl, rfl⟩⟩
  | file equal derives generated delivers stored member spoiled =>
      subst equal
      rcases derives with ⟨⟨input, opened, read, parsed⟩, derived⟩
      cases input
      have rendered := renderConfig_eq_ok_iff.mpr
        ⟨_, parsed, _, derived, _, generated, _, rfl, _, delivers, rfl⟩
      refine ⟨.report rfl opened ?_, heading?_file_eq_none_iff.mpr spoiled.not_isFault⟩
      exact .delivery terminal.shows_nil (bind_eq_ok_iff.mpr ⟨_, read, rendered⟩) stored

theorem breaksOff_of_breaks (input : command.input? = some path)
    (opened : tree.read path = .ok content)
    (shows : terminal.Shows (command.report content.data.toList entropy).lines)
    (breaks : Breaks (command.report content.data.toList entropy).result error) :
    command.BreaksOff terminal tree entropy error := by
  rcases (breaks_report_iff input).mp breaks with breaks | ⟨config, grammar, read, parsed, breaks⟩
  · exact .content input opened (breaks_readConfig_iff.mp breaks)
  · have loads := Loads.intro input opened read parsed
    rcases breaks with breaks | ⟨word, derived, builds, breaks⟩
    · exact .overrides loads ((breaks_derive_iff parsed).mp breaks)
    · have derives := Derives.intro loads derived
      rcases breaks with breaks | ⟨built, overrides, generated, rfl, rfl⟩
      · exact .word builds derives (breaks_generate_iff.mp breaks)
          ((shows_iff input opened).mp shows)
      · exact .output rfl derives generated

theorem breaksOff_of_stored (input : command.input? = some path)
    (opened : tree.read path = .ok content) {delivery : Delivery} {reason : FileError}
    {after : FileTree}
    (result : (command.report content.data.toList entropy).result = .ok delivery)
    (stored : (delivery.store FileTree.storage).run tree = (.error reason, after))
    (noFault : ¬ reason.IsFault) : command.BreaksOff terminal tree entropy (.file reason) := by
  rcases result_eq_ok input result with rfl | ⟨output, overrides, config, rfl, read, rendered⟩
  · -- Nothing can go wrong with no files.
    cases stored
  · rcases renderConfig_eq_ok_iff.mp rendered with
      ⟨grammar, parsed, word, derived, built, generated, target, rfl, scene, delivers, rfl⟩
    have reasons := (Delivery.stored scene.files tree).error reason
    rcases reasons (congrArg Prod.fst stored) with ⟨file, member, spoiled⟩ | isFault
    · exact .file rfl (.intro (.intro input opened read parsed) derived) generated delivers stored
        member spoiled
    · exact absurd isFault noFault

theorem breaksOff_iff : command.BreaksOff terminal tree entropy error ↔
    command.FailsWith terminal tree entropy error ∧ error.heading? = none := by
  constructor
  · exact BreaksOff.failsWith
  · rintro ⟨fails, untold⟩
    cases fails with
    | input input failed =>
        rcases FileTree.refused_of_read failed with refused | isFault
        · exact .path input refused
        · exact absurd isFault (heading?_file_eq_none_iff.mp untold)
    | report input opened fails =>
        cases fails with
        | line refuses =>
            rcases prints_or_nil input opened entropy with prints | nothing
            · exact .line prints refuses
            · rw [nothing] at refuses
              exact absurd refuses Terminal.not_refuses_nil
        | result shows failed => exact breaksOff_of_breaks input opened shows ⟨failed, untold⟩
        | delivery _ result stored =>
            exact breaksOff_of_stored input opened result stored
              (heading?_file_eq_none_iff.mp untold)

end

end Command

end CommandLine

end GrowthGrammar
