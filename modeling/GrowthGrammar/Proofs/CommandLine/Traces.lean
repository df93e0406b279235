import GrowthGrammar.Proofs.CommandLine.Results

/-!
# Runs that leave no trace

Files are touched by a delivery only, and everything that can be wrong with a configuration or a
grammar is found out before. So a run that reports such an error has left all files as they were,
wherever they are stored, and a command that delivers nothing never changes any.
-/

namespace GrowthGrammar

/-- Reading leaves everything as it is. -/
def Storage.ReadsOnly (storage : Storage (StateM σ)) : Prop :=
  ∀ path before, ((storage.read path).run before).2 = before

theorem FileTree.readsOnly_storage : FileTree.storage.ReadsOnly :=
  fun _ _ => rfl

namespace CommandLine

namespace Outcome

/-- An error with the heading is written. -/
def Reports (outcome : Outcome) (heading : String) : Prop :=
  ∃ message, outcome.errors = heading ++ ": " ++ message ++ "\n"

/-- A configuration or a grammar is refused. -/
def Rejects (outcome : Outcome) : Prop :=
  outcome.Reports "Config error" ∨ outcome.Reports "Grammar error"

theorem Rejects.head? {outcome : Outcome} (rejects : outcome.Rejects) :
    outcome.errors.toList.head? = some 'C' ∨ outcome.errors.toList.head? = some 'G' := by
  rcases rejects with ⟨message, written⟩ | ⟨message, written⟩
  · exact .inl (by simp [written])
  · exact .inr (by simp [written])

/-- Neither the log of a run that has delivered its files rejects anything … -/
theorem not_rejects_success (lines : List String) (notices : List Notice) :
    ¬ (success lines notices).Rejects := by
  intro rejects
  have start := rejects.head?
  cases notices <;> simp [success, linesText, Notice.line] at start

/-- … nor what is told of a file that could not be written. -/
theorem not_rejects_file (lines : List String) (reason : FileError) :
    ¬ (ofError lines (.file reason)).Rejects := by
  intro rejects
  have start := rejects.head?
  cases reason <;> simp [ofError, RunError.heading?] at start

@[simp] theorem output_ofError (lines : List String) (error : RunError) :
    (ofError lines error).output = linesText lines := by
  rw [ofError]
  split <;> rfl

theorem status_ofError_ne_ok_zero (lines : List String) (error : RunError) :
    (ofError lines error).status ≠ .ok 0 := by
  rw [ofError]
  split <;> simp

end Outcome

section

variable {terminal : Terminal} {storage : Storage (StateM σ)} {report : Report} {verbose : Bool}
  {before : σ}

/-- A report is concluded without a look at the files, unless it has something to deliver. -/
theorem run_conclude (report : Report) (terminal : Terminal) (verbose : Bool)
    (storage : Storage (StateM σ)) (before : σ) :
    (report.conclude terminal verbose storage).run before =
      match terminal.shown report.lines with
      | (lines, some error) => (.ofError lines (.file (.unencodable error)), before)
      | (lines, none) =>
          match report.result with
          | .error error => (.ofError lines error, before)
          | .ok delivery =>
              match (delivery.store storage).run before with
              | (.error reason, after) => (.ofError lines (.file reason), after)
              | (.ok _, after) =>
                  (.success lines (if verbose then delivery.notices else []), after) := by
  rw [Report.conclude]
  rcases terminal.shown report.lines with ⟨lines, _ | error⟩
  · cases report.result with
    | error error => rfl
    | ok delivery =>
        dsimp only
        rw [StateT.run_bind]
        rcases (delivery.store storage).run before with ⟨ended, after⟩
        cases ended <;> rfl
  · rfl

/-- What is printed are the lines that the terminal shows. -/
theorem output_conclude (report : Report) (terminal : Terminal) (verbose : Bool)
    (storage : Storage (StateM σ)) (before : σ) :
    ((report.conclude terminal verbose storage).run before).1.output =
      Outcome.linesText (terminal.shown report.lines).1 := by
  rw [run_conclude]
  rcases terminal.shown report.lines with ⟨lines, _ | error⟩
  · dsimp only
    split
    · exact Outcome.output_ofError _ _
    · split
      · exact Outcome.output_ofError _ _
      · rfl
  · exact Outcome.output_ofError _ _

/-- What is rejected has not been delivered. -/
theorem conclude_traceless
    (rejects : ((report.conclude terminal verbose storage).run before).1.Rejects) :
    ((report.conclude terminal verbose storage).run before).2 = before := by
  rw [run_conclude] at rejects ⊢
  generalize terminal.shown report.lines = shown at rejects ⊢
  obtain ⟨lines, _ | error⟩ := shown
  · dsimp only at rejects ⊢
    split at rejects
    · rfl
    · split at rejects
      · exact absurd rejects (Outcome.not_rejects_file _ _)
      · exact absurd rejects (Outcome.not_rejects_success _ _)
  · rfl

theorem conclude_of_nothing
    (nothing : ∀ delivery, report.result = .ok delivery → delivery = .nothing) :
    ((report.conclude terminal verbose storage).run before).2 = before := by
  rw [run_conclude]
  rcases terminal.shown report.lines with ⟨lines, _ | error⟩
  · cases result : report.result with
    | error error => rfl
    | ok delivery =>
        obtain rfl := nothing delivery result
        rfl
  · rfl

/-- A run ends at a file that cannot be read, or concludes what its command reports on the content
of it. -/
theorem run_cases (readsOnly : storage.ReadsOnly) (invocation : Invocation) (terminal : Terminal)
    (entropy : Int) (before : σ) :
    (∃ reason, (invocation.run terminal storage entropy).run before =
      (.ofError [] (.file reason), before)) ∨
    ∃ content, (invocation.run terminal storage entropy).run before =
      ((invocation.command.report content entropy).conclude terminal invocation.verbose
        storage).run before := by
  have kept : ((readInput storage invocation.command).run before).2 = before := by
    rw [readInput]
    split
    · rfl
    · exact readsOnly _ _
  rw [Invocation.run, StateT.run_bind]
  generalize (readInput storage invocation.command).run before = result at kept ⊢
  rcases result with ⟨ended, between⟩
  obtain rfl : between = before := kept
  cases ended with
  | error reason => exact .inl ⟨reason, rfl⟩
  | ok content => exact .inr ⟨content, rfl⟩

theorem run_traceless (readsOnly : storage.ReadsOnly) {invocation : Invocation} {entropy : Int}
    (rejects : ((invocation.run terminal storage entropy).run before).1.Rejects) :
    ((invocation.run terminal storage entropy).run before).2 = before := by
  rcases run_cases readsOnly invocation terminal entropy before with
    ⟨reason, ended⟩ | ⟨content, concluded⟩
  · rw [ended]
  · rw [concluded] at rejects ⊢
    exact conclude_traceless rejects

/-! Commands without files of their own. -/

/-- The command has nothing to deliver. -/
inductive Command.Looks (path : String) : Command → Prop
  | expand (overrides : Overrides) : Command.Looks path (.expand path overrides)
  | validate : Command.Looks path (.validate path)

theorem Command.Looks.nothing {path : String} {command : Command} (looks : command.Looks path)
    {content : List UInt8} {entropy : Int} {delivery : Delivery}
    (result : (command.report content entropy).result = .ok delivery) : delivery = .nothing := by
  cases looks
  all_goals
    rcases result_eq_ok rfl result with nothing | ⟨output, others, config, renders, _⟩
    · exact nothing
    · cases renders

theorem run_of_looks (readsOnly : storage.ReadsOnly) {path : String} {command : Command}
    (looks : command.Looks path) (terminal : Terminal) (verbose : Bool) (entropy : Int)
    (before : σ) :
    ((Invocation.run { verbose, command } terminal storage entropy).run before).2 = before := by
  rcases run_cases readsOnly { verbose, command } terminal entropy before with
    ⟨reason, ended⟩ | ⟨content, concluded⟩
  · rw [ended]
  · rw [concluded]
    exact conclude_of_nothing fun delivery => looks.nothing

theorem lines_of_expand_error {path : String} {overrides : Overrides} {content : List UInt8}
    {entropy : Int} {error : RunError}
    (result : ((Command.expand path overrides).report content entropy).result = .error error) :
    ((Command.expand path overrides).report content entropy).lines = [] := by
  rw [Command.report] at result ⊢
  split at result
  · cases result
  · rfl

/-- The one line of a derivation is shown, or nothing is. -/
theorem shown_of_expand (path : String) (overrides : Overrides) (content : List UInt8)
    (entropy : Int) {error : Text.UnpairedError}
    (refused : (terminal.shown
      ((Command.expand path overrides).report content entropy).lines).2 = some error) :
    (terminal.shown ((Command.expand path overrides).report content entropy).lines).1 = [] := by
  rw [Command.report] at refused ⊢
  split at refused
  · next word expanded =>
      rw [Terminal.shown] at refused ⊢
      split at refused
      · rfl
      · cases refused
  · rfl

/-- The derivation is printed only when it is complete. -/
theorem output_of_expand (readsOnly : storage.ReadsOnly) (path : String) (overrides : Overrides)
    (terminal : Terminal) (verbose : Bool) (entropy : Int) (before : σ) :
    let outcome := ((Invocation.run { verbose, command := .expand path overrides } terminal storage
      entropy).run before).1
    outcome.status ≠ .ok 0 → outcome.output = "" := by
  intro outcome failed
  rcases run_cases readsOnly { verbose, command := .expand path overrides } terminal entropy
    before with ⟨reason, ended⟩ | ⟨content, concluded⟩
  · simp only [outcome, ended, Outcome.output_ofError]
    rfl
  · simp only [outcome, concluded, output_conclude]
    cases result : ((Command.expand path overrides).report content entropy).result with
    | error error =>
        rw [lines_of_expand_error result]
        rfl
    | ok delivery =>
        cases refused : (terminal.shown
          ((Command.expand path overrides).report content entropy).lines).2 with
        | some error =>
            rw [shown_of_expand path overrides content entropy refused]
            rfl
        | none =>
            obtain rfl := (Command.Looks.expand overrides).nothing result
            refine absurd ?_ failed
            simp only [outcome, concluded, run_conclude, result]
            generalize terminal.shown _ = shown at refused ⊢
            obtain ⟨lines, error?⟩ := shown
            cases refused
            rfl

/-- Wherever files are stored, as long as reading them does not change them, and on every terminal:
a run that rejects a configuration or a grammar has left all of them as they were, checking and
expanding a configuration always does, and expanding prints nothing unless it has the exit
code 0. -/
theorem run_leaves_no_trace (readsOnly : storage.ReadsOnly) (terminal : Terminal) (entropy : Int)
    (arguments : List String) (before : σ) :
    let ended := (terminal.run storage entropy arguments).run before
    (ended.1.Rejects → ended.2 = before) ∧
      ∀ verbose command, Invocation.read terminal.customs arguments = .ok { verbose, command } →
        (∀ path, command = .validate path → ended.2 = before) ∧
        ∀ path overrides, command = .expand path overrides →
          ended.2 = before ∧ (ended.1.status ≠ .ok 0 → ended.1.output = "") := by
  intro ended
  simp only [ended, Terminal.run]
  cases read : Invocation.read terminal.customs arguments with
  | error stop =>
      refine ⟨fun _ => rfl, fun verbose command given => ?_⟩
      cases given
  | ok invocation =>
      refine ⟨run_traceless readsOnly, fun verbose command given => ?_⟩
      cases given
      refine ⟨?_, ?_⟩
      · rintro path rfl
        exact run_of_looks readsOnly .validate terminal verbose entropy before
      · rintro path overrides rfl
        exact ⟨run_of_looks readsOnly (.expand overrides) terminal verbose entropy before,
          output_of_expand readsOnly path overrides terminal verbose entropy before⟩

/-- A file tree with a configuration that has an unbalanced start word. -/
def unbalancedTree : FileTree :=
  (FileTree.empty ["w"]).put ["w", "c.json"] (.file "\x7b\"axiom\": \"A\x7b\"\x7d".toUTF8)

/-- No folder is made for the output when the grammar is rejected. -/
theorem run_leaves_no_trace_of_unbalanced :
    FileTree.storage.ReadsOnly ∧
      Invocation.read .early ["expand", "c.json"] =
        .ok { verbose := false, command := .expand "c.json" .none } ∧
      ((run FileTree.storage 0 ["render", "c.json", "out/a.obj"]).run unbalancedTree).2 =
        unbalancedTree ∧
      ((run FileTree.storage 0 ["expand", "c.json"]).run unbalancedTree).1.output = "" := by
  have reads := FileTree.readsOnly_storage
  have given : Invocation.read .early ["expand", "c.json"] =
      .ok { verbose := false, command := .expand "c.json" .none } := by
    decide +kernel
  have rendered := run_leaves_no_trace reads .recorded 0 ["render", "c.json", "out/a.obj"]
    unbalancedTree
  have expanded := run_leaves_no_trace reads .recorded 0 ["expand", "c.json"] unbalancedTree
  have rejects : ((run FileTree.storage 0 ["render", "c.json", "out/a.obj"]).run
      unbalancedTree).1.Rejects :=
    .inr ⟨"unbalanced '\x7b': 'A\x7b'", by decide +kernel⟩
  refine ⟨reads, given, rendered.1 rejects, ?_⟩
  exact ((expanded.2 _ _ given).2 _ _ rfl).2 (by decide +kernel)

end

end CommandLine

end GrowthGrammar
