import GrowthGrammar.Proofs.CommandLine.Stages

/-!
# What commands come to

The result of a command breaks off where one of its stages does. When it does not, rendering is the
only command that has files to deliver.
-/

namespace GrowthGrammar

open Fallible

namespace CommandLine

namespace Command

def overrides : Command → Overrides
  | render _ _ overrides | expand _ overrides => overrides
  | validate _ => .none
  | random _ seed => { seed, iterations := .none }

/-- How many symbols the word of a command may have. -/
def limit? : Command → Option Int
  | validate _ => some dryRunLimit
  | _ => none

/-- Whether a turtle carries out the word that the command derives. -/
def builds : Command → Bool
  | render .. | validate _ => true
  | _ => false

end Command

/-! Where the result of a command breaks off. -/

section

variable {config : Config} {entropy : Int} {error : RunError}

theorem breaks_renderConfig_iff {output : Argument String} {overrides : Overrides} :
    Breaks (renderConfig config output overrides entropy) error ↔
      ∃ grammar, config.grammar = .ok grammar ∧
        (Breaks (derive config grammar overrides none entropy) error ∨
          ∃ word, derive config grammar overrides none entropy = .ok word ∧
            (Breaks (generate config word) error ∨
              ∃ built, generate config word = .ok built ∧ output = .void ∧
                error = .void .path)) := by
  rw [renderConfig, breaks_mapError_bind_iff .parse fun _ => rfl]
  refine exists_congr fun grammar => and_congr_right fun _ => ?_
  rw [breaks_bind_iff]
  refine or_congr Iff.rfl (exists_congr fun word => and_congr_right fun _ => ?_)
  rw [breaks_bind_iff]
  refine or_congr Iff.rfl (exists_congr fun built => and_congr_right fun _ => ?_)
  rw [breaks_bind_iff, breaks_get_iff]
  refine or_iff_left ?_
  rintro ⟨path, _, breaks⟩
  rcases (breaks_mapError_bind_iff .config fun _ => rfl).mp breaks with ⟨delivery, _, breaks⟩
  exact not_breaks_ok breaks

theorem breaks_expandConfig_iff {overrides : Overrides} :
    Breaks (expandConfig config overrides entropy) error ↔
      ∃ grammar, config.grammar = .ok grammar ∧
        Breaks (derive config grammar overrides none entropy) error := by
  rw [expandConfig, breaks_mapError_bind_iff .parse fun _ => rfl]

theorem breaks_meshReport_iff {word : List Symbol} :
    Breaks (meshReport config word).result error ↔ Breaks (generate config word) error := by
  rw [meshReport]
  cases generate config word with
  | error reason =>
      change Breaks (.error reason : Except RunError Delivery) error ↔ _
      rw [breaks_error_iff, breaks_error_iff]
  | ok built =>
      refine iff_of_false ?_ not_breaks_ok
      dsimp only
      split
      · rintro ⟨equal, untold⟩
        cases equal
        cases untold
      · exact not_breaks_ok

theorem breaks_dryRun_iff {grammar : Grammar} :
    Breaks (dryRun config grammar entropy).result error ↔
      Breaks (derive config grammar .none (some dryRunLimit) entropy) error ∨
      ∃ word, derive config grammar .none (some dryRunLimit) entropy = .ok word ∧
        Breaks (generate config word) error := by
  rw [dryRun]
  split
  · next reason derived =>
      -- A word that grows too long is warned of here; no command breaks off for it.
      rw [derived]
      refine iff_of_false not_breaks_ok ?_
      rintro (⟨equal, untold⟩ | ⟨word, equal, _⟩)
      · cases equal
        cases untold
      · cases equal
  · next reason _ derived =>
      rw [derived]
      change Breaks (.error reason : Except RunError Delivery) error ↔ _
      simp [breaks_error_iff]
  · next word derived =>
      rw [derived]
      change Breaks (meshReport config word).result error ↔ _
      simp [breaks_meshReport_iff, not_breaks_ok]

theorem breaks_validateConfig_iff :
    Breaks (validateConfig config entropy).result error ↔
      ∃ grammar, config.grammar = .ok grammar ∧
        (Breaks (derive config grammar .none (some dryRunLimit) entropy) error ∨
          ∃ word, derive config grammar .none (some dryRunLimit) entropy = .ok word ∧
            Breaks (generate config word) error) := by
  rw [validateConfig]
  cases parsed : config.grammar with
  | error reason =>
      change Breaks (.error (.parse reason) : Except RunError Delivery) error ↔ _
      refine iff_of_false ?_ ?_
      · rintro ⟨equal, untold⟩
        cases equal
        cases untold
      · rintro ⟨grammar, equal, _⟩
        cases equal
  | ok grammar =>
      change Breaks (dryRun config grammar entropy).result error ↔ _
      simp [breaks_dryRun_iff]

/-- The result of a command breaks off where one of its stages does. -/
theorem breaks_report_iff {command : Command} {path : String} (input : command.input? = some path)
    {content : List UInt8} :
    Breaks (command.report content entropy).result error ↔
      Breaks (readConfig path content) error ∨
      ∃ config grammar, readConfig path content = .ok config ∧ config.grammar = .ok grammar ∧
        (Breaks (derive config grammar command.overrides command.limit? entropy) error ∨
          ∃ word, derive config grammar command.overrides command.limit? entropy = .ok word ∧
            command.builds = true ∧
            (Breaks (generate config word) error ∨
              ∃ built overrides, generate config word = .ok built ∧
                command = .render path .void overrides ∧ error = .void .path)) := by
  cases command with
  | render config output overrides =>
      cases input
      change Breaks (readConfig path content >>= fun config =>
        renderConfig config output overrides entropy) error ↔ _
      simp [breaks_bind_iff, breaks_renderConfig_iff, Command.overrides, Command.limit?,
        Command.builds]
  | expand config overrides =>
      cases input
      have results : Breaks ((Command.expand path overrides).report content entropy).result error ↔
          Breaks (readConfig path content >>= fun config =>
            expandConfig config overrides entropy) error := by
        rw [Command.report]
        cases readConfig path content >>= fun config => expandConfig config overrides entropy with
        | error reason =>
            change Breaks (.error reason : Except RunError Delivery) error ↔ _
            rw [breaks_error_iff, breaks_error_iff]
        | ok word => exact iff_of_false not_breaks_ok not_breaks_ok
      rw [results]
      simp [breaks_bind_iff, breaks_expandConfig_iff, Command.overrides, Command.limit?,
        Command.builds]
  | validate config =>
      cases input
      rw [Command.report]
      cases readConfig path content with
      | error reason =>
          change Breaks (.error reason : Except RunError Delivery) error ↔ _
          simp [breaks_error_iff]
      | ok config =>
          change Breaks (validateConfig config entropy).result error ↔ _
          simp [not_breaks_ok, breaks_validateConfig_iff, Command.overrides, Command.limit?,
            Command.builds]
  | random output seed => cases input

/-! What a command has come to when nothing breaks off. -/

theorem renderConfig_eq_ok_iff {output : Argument String} {overrides : Overrides}
    {delivery : Delivery} :
    renderConfig config output overrides entropy = .ok delivery ↔
      ∃ grammar, config.grammar = .ok grammar ∧
        ∃ word, derive config grammar overrides none entropy = .ok word ∧
          ∃ built, generate config word = .ok built ∧
            ∃ path, output = .value path ∧
              ∃ scene, Delivery.ofMeshes built.2 path config.precision config.name = .ok scene ∧
                { scene with notices := scene.notices ++ [cameraNotice built.1] } = delivery := by
  have given (path : String) :
      (output.get .path).mapError RunError.void = .ok path ↔ output = .value path := by
    cases output <;> simp [Argument.get, Except.mapError]
  rw [renderConfig, bind_eq_ok_iff]
  simp only [mapError_eq_ok_iff]
  refine exists_congr fun grammar => and_congr_right fun _ => ?_
  rw [bind_eq_ok_iff]
  refine exists_congr fun word => and_congr_right fun _ => ?_
  rw [bind_eq_ok_iff]
  refine exists_congr fun built => and_congr_right fun _ => ?_
  rw [bind_eq_ok_iff]
  refine exists_congr fun path => and_congr (given path) ?_
  rw [bind_eq_ok_iff]
  simp only [mapError_eq_ok_iff]
  refine exists_congr fun scene => and_congr_right fun _ => ?_
  exact ⟨fun equal => Except.ok.inj equal, fun equal => congrArg Except.ok equal⟩

theorem meshReport_eq_ok {word : List Symbol} {delivery : Delivery}
    (result : (meshReport config word).result = .ok delivery) : delivery = .nothing := by
  rw [meshReport] at result
  split at result
  · cases result
  · dsimp only at result
    split at result
    · cases result
    · cases result
      rfl

theorem dryRun_eq_ok {grammar : Grammar} {delivery : Delivery}
    (result : (dryRun config grammar entropy).result = .ok delivery) : delivery = .nothing := by
  rw [dryRun] at result
  split at result
  · cases result
    rfl
  · cases result
  · exact meshReport_eq_ok result

/-- Only rendering delivers anything. -/
theorem result_eq_ok {command : Command} {path : String} (input : command.input? = some path)
    {content : List UInt8} {delivery : Delivery}
    (result : (command.report content entropy).result = .ok delivery) :
    delivery = .nothing ∨
      ∃ output overrides config, command = .render path output overrides ∧
        readConfig path content = .ok config ∧
        renderConfig config output overrides entropy = .ok delivery := by
  cases command with
  | render config output overrides =>
      cases input
      rcases bind_eq_ok_iff.mp result with ⟨config, read, rendered⟩
      exact .inr ⟨output, overrides, config, rfl, read, rendered⟩
  | expand config overrides =>
      refine .inl ?_
      rw [Command.report] at result
      split at result
      · cases result
        rfl
      · cases result
  | validate config =>
      refine .inl ?_
      rw [Command.report] at result
      split at result
      · rw [validateConfig] at result
        split at result
        · cases result
        · exact dryRun_eq_ok result
      · cases result
  | random output seed => cases input

end

end CommandLine

end GrowthGrammar
