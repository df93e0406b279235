import GrowthGrammar.Proofs.CommandLine.Failures

/-!
# How commands end

A command that reads a configuration has the exit code 0 if it does not fail, and the exit code 2 if
it fails with an error that users are told of. Any other error breaks it off.
-/

namespace GrowthGrammar

open Fallible

namespace CommandLine

/-! Outcomes. -/

namespace Outcome

/-- What is written about an error that users are told of. -/
def Tells (fails : RunError → Prop) (errors : String) : Prop :=
  ∃ error heading, fails error ∧ error.heading? = some heading ∧
    errors = heading ++ ": " ++ error.message ++ "\n"

/-- The outcome accounts for a failure: its exit code is 0 if there is none, and 2 if the failure is
written; any other failure is passed on in the place of an exit code. -/
structure Ends (outcome : Outcome) (fails : RunError → Prop) : Prop where
  cases : outcome.status = .ok 0 ∨ outcome.status = .ok 2 ∨ ∃ error, outcome.status = .error error
  done_iff : outcome.status = .ok 0 ↔ ∀ error, ¬ fails error
  told_iff : outcome.status = .ok 2 ↔ Tells fails outcome.errors
  error_iff : ∀ error, outcome.status = .error error ↔ fails error ∧ error.heading? = none

theorem Ends.congr {outcome : Outcome} {first second : RunError → Prop}
    (ends : outcome.Ends first) (same : ∀ error, first error ↔ second error) :
    outcome.Ends second := by
  have equal : first = second := funext fun error => propext (same error)
  exact equal ▸ ends

theorem ends_ofError (lines : List String) (reason : RunError) :
    (ofError lines reason).Ends fun error => error = reason := by
  rw [ofError]
  cases told : reason.heading? with
  | some heading =>
      constructor
      · exact .inr (.inl rfl)
      · exact iff_of_false nofun fun none => none reason rfl
      · exact iff_of_true rfl ⟨reason, heading, rfl, told, rfl⟩
      · intro error
        refine iff_of_false nofun ?_
        rintro ⟨rfl, untold⟩
        cases told.symm.trans untold
  | none =>
      constructor
      · exact .inr (.inr ⟨reason, rfl⟩)
      · exact iff_of_false nofun fun none => none reason rfl
      · refine iff_of_false nofun ?_
        rintro ⟨error, heading, rfl, found, _⟩
        cases told.symm.trans found
      · intro error
        constructor
        · intro equal
          cases equal
          exact ⟨rfl, told⟩
        · rintro ⟨rfl, _⟩
          rfl

theorem ends_success (lines : List String) (notices : List Notice) :
    (success lines notices).Ends fun _ => False where
  cases := .inl rfl
  done_iff := iff_of_true rfl fun _ => id
  told_iff := iff_of_false nofun fun ⟨_, _, fails, _⟩ => fails
  error_iff _ := iff_of_false nofun And.left

end Outcome

theorem ends_conclude (report : Report) (terminal : Terminal) (verbose : Bool) (tree : FileTree) :
    ((report.conclude terminal verbose FileTree.storage).run tree).1.Ends
      (report.Fails terminal tree) := by
  rw [Report.conclude]
  rcases terminal.shows_or_refuses report.lines with shows | ⟨reason, refuses⟩
  · rw [Terminal.shown_of_shows shows]
    cases result : report.result with
    | error reason =>
        refine (Outcome.ends_ofError report.lines reason).congr fun error => ?_
        rw [Report.fails_iff_of_error shows result]
    | ok delivery =>
        dsimp only
        rw [StateT.run_bind]
        rcases stored : (delivery.store FileTree.storage).run tree with ⟨ended, after⟩
        cases ended with
        | error reason =>
            refine (Outcome.ends_ofError report.lines (.file reason)).congr fun error => ?_
            rw [Report.fails_iff_of_ok shows result, stored]
            simp
        | ok done =>
            refine (Outcome.ends_success report.lines _).congr fun error => ?_
            rw [Report.fails_iff_of_ok shows result, stored]
            simp
  · have fails (error : RunError) :
        report.Fails terminal tree error ↔ error = .file (.unencodable reason) :=
      Report.fails_iff_of_refuses refuses
    rcases refuses with ⟨before, line, after, lines_eq, shows, refused⟩
    rw [lines_eq, Terminal.shown_append shows refused]
    exact (Outcome.ends_ofError before (.file (.unencodable reason))).congr fun error =>
      (fails error).symm

theorem ends_run (invocation : Invocation) {path : String}
    (input : invocation.command.input? = some path) (terminal : Terminal) (tree : FileTree)
    (entropy : Int) :
    ((invocation.run terminal FileTree.storage entropy).run tree).1.Ends
      (invocation.command.FailsWith terminal tree entropy) := by
  rw [run_of_input invocation input]
  cases opened : tree.read path with
  | error reason =>
      refine (Outcome.ends_ofError [] (.file reason)).congr fun error => ?_
      constructor
      · rintro rfl
        exact .input input opened
      · intro fails
        cases fails with
        | input otherInput failed =>
            cases input.symm.trans otherInput
            cases opened.symm.trans failed
            rfl
        | report otherInput otherOpened _ =>
            cases input.symm.trans otherInput
            cases opened.symm.trans otherOpened
  | ok content =>
      refine (ends_conclude _ _ _ _).congr fun error => ⟨.report input opened, fun fails => ?_⟩
      cases fails with
      | input otherInput failed =>
          cases input.symm.trans otherInput
          cases opened.symm.trans failed
      | report otherInput otherOpened failed =>
          cases input.symm.trans otherInput
          cases opened.symm.trans otherOpened
          exact failed

/-- A command that reads a configuration has the exit code 0 just when it does not fail, and the
exit code 2 just when it fails with an error that is written. One of these is the case unless the
command breaks off, and it breaks off just for the reasons given. -/
theorem run_ends (terminal : Terminal) {arguments : List String} {verbose : Bool}
    {command : Command} {path : String}
    (given : Invocation.read terminal.customs arguments = .ok { verbose, command })
    (input : command.input? = some path) (tree : FileTree) (entropy : Int) :
    let outcome := ((terminal.run FileTree.storage entropy arguments).run tree).1
    (outcome.status = .ok 0 ↔ ∀ error, ¬ command.FailsWith terminal tree entropy error) ∧
      (outcome.status = .ok 2 ↔
        Outcome.Tells (command.FailsWith terminal tree entropy) outcome.errors) ∧
      (∀ error, outcome.status = .error error ↔
        command.BreaksOff terminal tree entropy error) ∧
      ((∀ error, ¬ command.BreaksOff terminal tree entropy error) →
        outcome.status = .ok 0 ∨ outcome.status = .ok 2) := by
  have run_eq : terminal.run FileTree.storage entropy arguments =
      ({ verbose, command } : Invocation).run terminal FileTree.storage entropy := by
    rw [Terminal.run, given]
  rw [run_eq]
  have ends := ends_run { verbose, command } input terminal tree entropy
  have breaks (error : RunError) := (ends.error_iff error).trans Command.breaksOff_iff.symm
  refine ⟨ends.done_iff, ends.told_iff, breaks, fun none => ?_⟩
  rcases ends.cases with done | told | ⟨error, failed⟩
  · exact .inl done
  · exact .inr told
  · exact absurd ((breaks error).mp failed) (none error)

def configTree (content : ByteArray) : FileTree :=
  (FileTree.empty ["w"]).put ["w", "c.json"] (.file content)

/-- A configuration of one byte, which no character begins with. -/
def undecodableTree : FileTree :=
  configTree (.mk #[0xff])

def namedTree (name : String) : FileTree :=
  configTree ("\x7b\"axiom\": \"cube\", \"name\": \"" ++ name ++ "\"\x7d").toUTF8

/-- Checking a configuration that cannot be decoded breaks off, and so does printing a name with
half of a pair of surrogates. Checking one that is missing does not, nor does printing a character
that is for private use. -/
theorem run_ends_of_undecodable :
    (∀ customs, Invocation.read customs ["validate", "c.json"] =
        .ok { verbose := false, command := .validate "c.json" }) ∧
      (Command.validate "c.json").input? = some "c.json" ∧
      (Command.validate "c.json").BreaksOff .recorded undecodableTree 0
        (.undecodable { fault := .invalidStart, byte := 0xff, position := 0, length := 1 }) ∧
      (Command.validate "c.json").BreaksOff .system (namedTree "\\ud800") 0
        (.file (.unencodable { code := 0xd800, position := 6, length := 1 })) ∧
      (∀ error, ¬ (Command.validate "c.json").BreaksOff .system (.empty ["w"]) 0 error) ∧
      ∀ error, ¬ (Command.validate "c.json").BreaksOff .system
        (namedTree (.singleton (Char.ofNat 0x10d800))) 0 error := by
  have given (customs : Customs) : Invocation.read customs ["validate", "c.json"] =
      .ok { verbose := false, command := .validate "c.json" } := by
    cases customs <;> decide +kernel
  have undecodable := run_ends .recorded (given .early) rfl undecodableTree 0
  have unpaired := run_ends .system (given .late) rfl (namedTree "\\ud800") 0
  have missing := run_ends .system (given .late) rfl (.empty ["w"]) 0
  have privateUse := run_ends .system (given .late) rfl
    (namedTree (.singleton (Char.ofNat 0x10d800))) 0
  have told : ((Terminal.system.run FileTree.storage 0 ["validate", "c.json"]).run
      (.empty ["w"])).1.status = .ok 2 := by
    decide +kernel
  have done : ((Terminal.system.run FileTree.storage 0 ["validate", "c.json"]).run
      (namedTree (.singleton (Char.ofNat 0x10d800)))).1.status = .ok 0 := by
    decide +kernel
  refine ⟨given, rfl, (undecodable.2.2.1 _).mp (by decide +kernel),
    (unpaired.2.2.1 _).mp (by decide +kernel), fun error breaksOff => ?_, fun error breaksOff => ?_⟩
  · have equal := (missing.2.2.1 error).mpr breaksOff
    rw [told] at equal
    cases equal
  · have equal := (privateUse.2.2.1 error).mpr breaksOff
    rw [done] at equal
    cases equal

/-- Users are not told that the configuration is invalid, and there is no exit code. -/
theorem status_of_undecodable :
    ((run FileTree.storage 0 ["validate", "c.json"]).run undecodableTree).1.status =
      .error (.undecodable
        { fault := .invalidStart, byte := 0xff, position := 0, length := 1 }) := by
  decide +kernel

end CommandLine

end GrowthGrammar
