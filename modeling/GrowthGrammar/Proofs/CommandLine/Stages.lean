import GrowthGrammar.Proofs.CommandLine.Overrides
import GrowthGrammar.Proofs.Rewrite.Completion
import GrowthGrammar.Proofs.Turtle.Failure
import GrowthGrammar.Proofs.Turtle.Resources

/-!
# Where stages break off

Users are told of most errors. The others break a command off, and come from three of its stages:
reading a configuration, taking the overrides, and carrying out a word. Neither parsing a grammar
nor rewriting by it breaks anything off.
-/

namespace GrowthGrammar

open Fallible

namespace CommandLine

/-! Computations that break off. -/

/-- The computation fails with an error that users are not told of. -/
def Breaks (action : Except RunError α) (error : RunError) : Prop :=
  action = .error error ∧ error.heading? = none

section

variable {error : RunError}

theorem not_breaks_ok {value : α} : ¬ Breaks (.ok value) error :=
  fun breaks => nomatch breaks.1

theorem breaks_error_iff {reason : RunError} :
    Breaks (.error reason : Except RunError α) error ↔
      reason = error ∧ reason.heading? = none := by
  constructor
  · rintro ⟨equal, untold⟩
    cases equal
    exact ⟨rfl, untold⟩
  · rintro ⟨rfl, untold⟩
    exact ⟨rfl, untold⟩

theorem breaks_bind_iff {action : Except RunError α} {next : α → Except RunError β} :
    Breaks (action >>= next) error ↔
      Breaks action error ∨ ∃ value, action = .ok value ∧ Breaks (next value) error := by
  cases action with
  | error reason =>
      change Breaks (.error reason : Except RunError β) error ↔ _
      simp [breaks_error_iff]
  | ok value =>
      rw [ok_bind]
      simp [not_breaks_ok]

theorem breaks_mapError_iff {action : Except ε α} {change : ε → RunError} :
    Breaks (action.mapError change) error ↔
      ∃ reason, action = .error reason ∧ change reason = error ∧ error.heading? = none := by
  cases action with
  | error reason =>
      change Breaks (.error (change reason) : Except RunError α) error ↔ _
      rw [breaks_error_iff]
      constructor
      · rintro ⟨rfl, untold⟩
        exact ⟨reason, rfl, rfl, untold⟩
      · rintro ⟨other, equal, rfl, untold⟩
        cases equal
        exact ⟨rfl, untold⟩
  | ok value =>
      change Breaks (.ok value : Except RunError α) error ↔ _
      simp [not_breaks_ok]

/-- Errors that users are told of do not break anything off. -/
theorem breaks_mapError_bind_iff (change : ε → RunError)
    (told : ∀ reason, (change reason).heading?.isSome) {action : Except ε α}
    {next : α → Except RunError β} :
    Breaks (action.mapError change >>= next) error ↔
      ∃ value, action = .ok value ∧ Breaks (next value) error := by
  rw [breaks_bind_iff, breaks_mapError_iff]
  simp only [mapError_eq_ok_iff]
  refine or_iff_right ?_
  rintro ⟨reason, _, rfl, untold⟩
  have isSome := told reason
  rw [untold] at isSome
  cases isSome

/-! Reading a configuration. -/

/-- Why reading the content of a file breaks off: it is not in the right encoding, it is nested too
deeply or has an integer of too many digits, or it has a default that no double can hold. -/
inductive Unreadable (path : String) (content : List UInt8) : RunError → Prop
  | undecodable {reason : Text.Utf8Error} : Text.decodeUtf8 content = .error reason →
      Unreadable path content (.undecodable reason)
  | limit {chars : List Char} {reason : Json.ReadError} :
      Text.decodeUtf8 content = .ok chars → Json.read (Text.unifyLineEnds chars) = .error reason →
      reason.fault.isLimit = true → Unreadable path content (.limit reason.fault)
  | integerTooLarge {members : List (String × Json)} :
      readJson path content = .ok (.object members) →
      Config.ofJson (.object members) = .error .integerTooLarge →
      Config.HasLargeDefault members → Unreadable path content .integerTooLarge

theorem breaks_readJson_iff {path : String} {content : List UInt8} :
    Breaks (readJson path content) error ↔
      (∃ reason, Text.decodeUtf8 content = .error reason ∧ error = .undecodable reason) ∨
      ∃ chars reason, Text.decodeUtf8 content = .ok chars ∧
        Json.read (Text.unifyLineEnds chars) = .error reason ∧ reason.fault.isLimit = true ∧
        error = .limit reason.fault := by
  rw [readJson, breaks_bind_iff, breaks_mapError_iff]
  refine or_congr ?_ (exists_congr fun chars => ?_)
  · constructor
    · rintro ⟨reason, failed, rfl, _⟩
      exact ⟨reason, failed, rfl⟩
    · rintro ⟨reason, failed, rfl⟩
      exact ⟨reason, failed, rfl, rfl⟩
  · rw [mapError_eq_ok_iff, breaks_mapError_iff]
    constructor
    · rintro ⟨decoded, reason, failed, equal, untold⟩
      -- Faults that do not lie in a limit are told of.
      cases isLimit : reason.fault.isLimit with
      | false =>
          rw [isLimit, if_neg Bool.false_ne_true] at equal
          subst equal
          cases untold
      | true =>
          rw [isLimit, if_pos rfl] at equal
          exact ⟨reason, decoded, failed, isLimit, equal.symm⟩
    · rintro ⟨reason, decoded, failed, isLimit, rfl⟩
      exact ⟨decoded, reason, failed, if_pos isLimit, rfl⟩

theorem breaks_readConfig_iff {path : String} {content : List UInt8} :
    Breaks (readConfig path content) error ↔ Unreadable path content error := by
  rw [readConfig, breaks_bind_iff, breaks_readJson_iff]
  constructor
  · rintro ((⟨reason, undecoded, rfl⟩ | ⟨chars, reason, decoded, failed, isLimit, rfl⟩) |
      ⟨value, read, breaks⟩)
    · exact .undecodable undecoded
    · exact .limit decoded failed isLimit
    · rcases breaks_mapError_iff.mp breaks with ⟨failure, failed, rfl, untold⟩
      cases failure with
      | invalid invalid => cases untold
      | integerTooLarge =>
          cases value with
          | object members =>
              exact .integerTooLarge read failed (Config.Overflows.ofJson_object members failed)
          | _ => cases failed
  · intro unreadable
    cases unreadable with
    | undecodable undecoded => exact .inl (.inl ⟨_, undecoded, rfl⟩)
    | limit decoded failed isLimit => exact .inl (.inr ⟨_, _, decoded, failed, isLimit, rfl⟩)
    | integerTooLarge read failed large =>
        exact .inr ⟨_, read, breaks_mapError_iff.mpr ⟨_, failed, rfl, rfl⟩⟩

/-! Taking the overrides. -/

/-- Why taking the overrides breaks off: a separator stands in the place of a value. The seed is
taken first. -/
inductive Overrides.Void (overrides : Overrides) : RunError → Prop
  | seed : overrides.seed = some .void → Overrides.Void overrides (.void .seed)
  | iterations : overrides.seed ≠ some .void → overrides.iterations = some .void →
      Overrides.Void overrides (.void .iterations)

theorem breaks_get_iff {role : Role} {given : Argument α} :
    Breaks ((given.get role).mapError .void) error ↔ given = .void ∧ error = .void role := by
  cases given with
  | value value => exact iff_of_false not_breaks_ok nofun
  | void =>
      change Breaks (.error (.void role) : Except RunError α) error ↔ _
      rw [breaks_error_iff]
      constructor
      · rintro ⟨rfl, _⟩
        exact ⟨rfl, rfl⟩
      · rintro ⟨_, rfl⟩
        exact ⟨rfl, rfl⟩

theorem breaks_intOf?_iff {role : Role} {given? : Option (Argument Int)} :
    Breaks (intOf? role given?) error ↔ given? = some .void ∧ error = .void role := by
  cases given? with
  | none => exact iff_of_false not_breaks_ok nofun
  | some given =>
      change Breaks ((given.get role).mapError .void >>= fun value => .ok (some value)) error ↔ _
      simp [breaks_bind_iff, breaks_get_iff, not_breaks_ok]

theorem exists_intOf?_iff {role : Role} {given? : Option (Argument Int)} :
    (∃ value, intOf? role given? = .ok value) ↔ given? ≠ some .void := by
  match given? with
  | none | some (.value _) => exact iff_of_true ⟨_, rfl⟩ nofun
  | some .void => exact iff_of_false nofun fun given => given rfl

theorem breaks_derive_iff {config : Config} {grammar : Grammar}
    (parsed : config.grammar = .ok grammar) {overrides : Overrides} {limit : Option Int}
    {entropy : Int} :
    Breaks (derive config grammar overrides limit entropy) error ↔ overrides.Void error := by
  -- The names in a parsed grammar have values, and a twister can always be drawn from.
  have derives (state : Twister) (iterations : Int) : ¬ Breaks ((expand grammar.rules
      Twister.source limit iterations grammar.start state).1.mapError .derivation) error := by
    rw [breaks_mapError_iff]
    rintro ⟨reason, failed, rfl, untold⟩
    rcases exists_expansion_of_expand_error (Grammar.parse_scoped parsed) Twister.source_inRange
      failed with ⟨expansion, rfl⟩
    cases untold
  rw [derive, breaks_bind_iff, breaks_intOf?_iff]
  simp only [breaks_bind_iff, breaks_intOf?_iff, derives, and_false, exists_false, or_false,
    exists_and_right, exists_intOf?_iff]
  constructor
  · rintro (⟨seed, rfl⟩ | ⟨seed, iterations, rfl⟩)
    · exact .seed seed
    · exact .iterations seed iterations
  · rintro (seed | ⟨seed, iterations⟩)
    · exact .inl ⟨seed, rfl⟩
    · exact .inr ⟨seed, iterations, rfl⟩

/-! Carrying out a word. -/

/-- Why carrying out a word breaks off: it has a command that the turtle cannot carry out, behind
others that it can. -/
inductive Stuck (config : Config) : List Symbol → RunError → Prop
  | intro {done rest : List Symbol} {symbol : Symbol} {between : Turtle}
      {command : GrowthGrammar.Command} {reason : TurtleError} :
      (done.forM Turtle.obey).run ((Turtle.new config.defaults).setDefaults []).reset =
        .ok ⟨⟩ between →
      GrowthGrammar.Command.ofSymbol? symbol = some command → between.Fails command reason →
      Stuck config (done ++ symbol :: rest) (.turtle reason)

theorem breaks_generate_iff {config : Config} {word : List Symbol} :
    Breaks (generate config word) error ↔ Stuck config word error := by
  rw [generate, Turtle.run_generate]
  constructor
  · intro breaks
    cases run : (word.forM Turtle.obey).run
      ((Turtle.new config.defaults).setDefaults []).reset with
    | ok value after =>
        rw [run] at breaks
        exact absurd breaks not_breaks_ok
    | error reason after =>
        rw [run] at breaks
        cases breaks.1
        rcases Turtle.run_error_iff.mp ⟨after, run⟩ with
          ⟨done, symbol, rest, between, command, rfl, runDone, reads, fails⟩
        exact .intro runDone reads fails
  · intro stuck
    cases stuck with
    | intro runDone reads fails =>
        rcases Turtle.run_error_iff.mpr ⟨_, _, _, _, _, rfl, runDone, reads, fails⟩ with
          ⟨after, run⟩
        rw [run]
        exact ⟨rfl, rfl⟩

end

end CommandLine

end GrowthGrammar
