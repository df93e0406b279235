import GrowthGrammar.Config.Basic
import GrowthGrammar.Proofs.Fallible

/-!
# What a configuration is read from

A configuration is accepted exactly when each of its members is. So a member that is put into an
accepted configuration changes what is read from this member, and nothing else.
-/

namespace GrowthGrammar

open Fallible

namespace Preset

theorem eq_of_name_eq {first second : Preset} (firstKnown : first ∈ all) (secondKnown : second ∈ all)
    (same : first.name = second.name) : first = second := by
  have different : ∀ first ∈ all, ∀ second ∈ all, first.name = second.name → first = second := by
    decide +kernel
  exact different first firstKnown second secondKnown same

theorem known_of_find? {name : String} {preset : Preset} (found : find? name = some preset) :
    preset ∈ all ∧ preset.name.toList = name.toList.map lowerChar := by
  rw [find?] at found
  have named := List.find?_some found
  exact ⟨List.mem_of_find?_eq_some found, of_decide_eq_true named⟩

/-- A preset is found by its name, in whatever letter case that is given. -/
theorem find?_eq_some_iff {name : String} {preset : Preset} :
    find? name = some preset ↔ preset ∈ all ∧ preset.name.toList = name.toList.map lowerChar := by
  refine ⟨known_of_find?, fun ⟨known, named⟩ => ?_⟩
  cases found : find? name with
  | none =>
      rw [find?, List.find?_eq_none] at found
      exact absurd (decide_eq_true named) (found preset known)
  | some other =>
      rcases known_of_find? found with ⟨otherKnown, otherNamed⟩
      have same : other.name = preset.name := String.toList_inj.mp (otherNamed.trans named.symm)
      rw [eq_of_name_eq otherKnown known same]

end Preset

namespace Config

/-- The members are read as a configuration, each on its own. -/
inductive Reads (members : List (String × Json)) : Config → Prop
  | intro {preset? : Option Preset} {name : String} {start? : Option String} {rules : String}
      {iterations : Int} {seed : Option Int} {settings : List (Setting × Float)}
      {precision : Nat} :
      readPreset members = .ok preset? →
      memberOr members "name" ((preset?.map Preset.name).getD "L-System") asString = .ok name →
      memberOr members "axiom" (preset?.map Preset.start)
        (fun path value => (asString path value).map some) = .ok start? →
      memberOr members "rules" ((preset?.map Preset.rules).getD "") asRules = .ok rules →
      memberOr members "iterations" ((preset?.map fun preset => (preset.iterations : Int)).getD 0)
        asInteger = .ok iterations →
      Text.isAllBlank (start?.getD "").toList = false →
      0 ≤ iterations →
      readSeed members = .ok seed →
      readSettings members = .ok settings →
      readPrecision members = .ok precision →
      Reads members
        { name, start := start?.getD "", rules, iterations := iterations.toNat, seed, settings,
          precision }

theorem require_eq_ok_iff {condition : Bool} {error : ConfigError} {value : Unit} :
    require condition error = .ok value ↔ condition = true := by
  cases condition with
  | false => simp [require, refuse]
  | true => simp [require]

theorem ofJson_object_eq_ok_iff {members : List (String × Json)} {config : Config} :
    ofJson (.object members) = .ok config ↔ Reads members config := by
  constructor
  · intro accepted
    rcases bind_eq_ok_iff.mp accepted with ⟨_, members_eq, accepted⟩
    cases members_eq
    rcases bind_eq_ok_iff.mp accepted with ⟨preset?, preset_eq, accepted⟩
    rcases bind_eq_ok_iff.mp accepted with ⟨name, name_eq, accepted⟩
    rcases bind_eq_ok_iff.mp accepted with ⟨start?, start_eq, accepted⟩
    rcases bind_eq_ok_iff.mp accepted with ⟨rules, rules_eq, accepted⟩
    rcases bind_eq_ok_iff.mp accepted with ⟨iterations, iterations_eq, accepted⟩
    rcases bind_eq_ok_iff.mp accepted with ⟨⟨⟩, visible, accepted⟩
    rcases bind_eq_ok_iff.mp accepted with ⟨⟨⟩, nonnegative, accepted⟩
    rcases bind_eq_ok_iff.mp accepted with ⟨seed, seed_eq, accepted⟩
    rcases bind_eq_ok_iff.mp accepted with ⟨settings, settings_eq, accepted⟩
    rcases bind_eq_ok_iff.mp accepted with ⟨precision, precision_eq, accepted⟩
    cases accepted
    refine .intro preset_eq name_eq start_eq rules_eq iterations_eq ?_ ?_ seed_eq settings_eq
      precision_eq
    · simpa using require_eq_ok_iff.mp visible
    · simpa using require_eq_ok_iff.mp nonnegative
  · rintro ⟨preset_eq, name_eq, start_eq, rules_eq, iterations_eq, visible, nonnegative, seed_eq,
      settings_eq, precision_eq⟩
    refine bind_eq_ok_iff.mpr ⟨members, rfl, ?_⟩
    refine bind_eq_ok_iff.mpr ⟨_, preset_eq, ?_⟩
    refine bind_eq_ok_iff.mpr ⟨_, name_eq, ?_⟩
    refine bind_eq_ok_iff.mpr ⟨_, start_eq, ?_⟩
    refine bind_eq_ok_iff.mpr ⟨_, rules_eq, ?_⟩
    refine bind_eq_ok_iff.mpr ⟨_, iterations_eq, ?_⟩
    refine bind_eq_ok_iff.mpr ⟨⟨⟩, require_eq_ok_iff.mpr (by simpa using visible), ?_⟩
    refine bind_eq_ok_iff.mpr ⟨⟨⟩, require_eq_ok_iff.mpr (by simpa using nonnegative), ?_⟩
    refine bind_eq_ok_iff.mpr ⟨_, seed_eq, ?_⟩
    refine bind_eq_ok_iff.mpr ⟨_, settings_eq, ?_⟩
    exact bind_eq_ok_iff.mpr ⟨_, precision_eq, rfl⟩

theorem mapM_zipIdx_asString (path : String) (texts : List String) (start : Nat) :
    ((texts.map Json.string).zipIdx start).mapM
      (fun (item, place) => asString (path ++ "[" ++ toString place ++ "]") item) = .ok texts := by
  induction texts generalizing start with
  | nil => rfl
  | cons text texts induction =>
      rw [List.map_cons, List.zipIdx_cons, List.mapM_cons, induction]
      rfl

theorem asRules_array (path : String) (texts : List String) :
    asRules path (.array (texts.map .string)) = .ok ("\n".intercalate texts) := by
  rw [asRules, mapM_zipIdx_asString]
  rfl

theorem isPrecision_of_readPrecision {members : List (String × Json)} {precision : Nat}
    (given : readPrecision members = .ok precision) : isPrecision precision = true := by
  rcases bind_eq_ok_iff.mp given with ⟨options, _, given⟩
  rcases bind_eq_ok_iff.mp given with ⟨places, _, given⟩
  rcases bind_eq_ok_iff.mp given with ⟨⟨⟩, inRange, given⟩
  cases given
  have inRange := require_eq_ok_iff.mp inRange
  have nonnegative : 0 ≤ places := by
    simp [isPrecision] at inRange
    exact inRange.1
  rwa [Int.toNat_of_nonneg nonnegative]

/-- A scene can be written with the precision of an accepted configuration. -/
theorem isPrecision_of_ofJson {value : Json} {config : Config}
    (accepted : ofJson value = .ok config) : isPrecision config.precision = true := by
  rcases bind_eq_ok_iff.mp accepted with ⟨members, members_eq, _⟩
  cases value with
  | object members =>
      rcases ofJson_object_eq_ok_iff.mp accepted with ⟨_, _, _, _, _, _, _, _, _, precision_eq⟩
      exact isPrecision_of_readPrecision precision_eq
  | _ => cases members_eq

/-! Integers that no double can hold. -/

/-- A known default is given by an integer that no double can hold. -/
def HasLargeDefault (members : List (String × Json)) : Prop :=
  ∃ settings name setting integer, Json.member? members "defaults" = some (.object settings) ∧
    (name, .int integer) ∈ settings ∧ Setting.ofName? name = some setting ∧
    Number.ofInt? integer = none

theorem member?_of_memberOr_asMembers {members settings : List (String × Json)} {key : String}
    (given : memberOr members key [] asMembers = .ok settings) (nonempty : settings ≠ []) :
    Json.member? members key = some (.object settings) := by
  rw [memberOr] at given
  split at given
  · next value found =>
      rw [found]
      cases value with
      | object others =>
          cases given
          rfl
      | _ => cases given
  · cases given
    exact absurd rfl nonempty

/-- The check fails at such an integer only for the given reason. -/
def Overflows (reason : Prop) (check : Except ConfigFailure α) : Prop :=
  check = .error .integerTooLarge → reason

namespace Overflows

variable {reason : Prop}

theorem ok (value : α) : Overflows reason (.ok value) :=
  nofun

theorem refuse (error : ConfigError) : Overflows reason (refuse error : Except ConfigFailure α) :=
  nofun

theorem bind {check : Except ConfigFailure α} {next : α → Except ConfigFailure β}
    (first : Overflows reason check)
    (continues : ∀ value, check = .ok value → Overflows reason (next value)) :
    Overflows reason (check >>= next) := by
  cases check with
  | error failure =>
      intro equal
      cases equal
      exact first rfl
  | ok value => exact continues value rfl

theorem map {check : Except ConfigFailure α} (first : Overflows reason check) (change : α → β) :
    Overflows reason (check.map change) := by
  cases check with
  | error failure =>
      intro equal
      cases equal
      exact first rfl
  | ok value => exact ok _

theorem mapM {read : α → Except ConfigFailure β} {items : List α}
    (each : ∀ item ∈ items, Overflows reason (read item)) : Overflows reason (items.mapM read) := by
  induction items with
  | nil => exact ok []
  | cons item items induction =>
      rcases List.forall_mem_cons.mp each with ⟨head, rest⟩
      rw [List.mapM_cons]
      exact bind head fun _ _ => bind (induction rest) fun _ _ => ok _

theorem memberOr {members : List (String × Json)} {key : String} {standard : α}
    {read : String → Json → Except ConfigFailure α}
    (each : ∀ value, Overflows reason (read key value)) :
    Overflows reason (memberOr members key standard read) := by
  rw [Config.memberOr]
  split
  · exact each _
  · exact ok standard

theorem require (condition : Bool) (error : ConfigError) :
    Overflows reason (require condition error) := by
  cases condition with
  | false => exact refuse error
  | true => exact ok _

theorem asString (path : String) (value : Json) : Overflows reason (asString path value) := by
  cases value with
  | string text => exact ok text
  | _ => exact refuse _

theorem asInteger (path : String) (value : Json) : Overflows reason (asInteger path value) := by
  cases value with
  | int value => exact ok value
  | _ => exact refuse _

theorem asMembers (path : String) (value : Json) : Overflows reason (asMembers path value) := by
  cases value with
  | object members => exact ok members
  | _ => exact refuse _

theorem asRules (path : String) (value : Json) : Overflows reason (asRules path value) := by
  unfold Config.asRules
  split
  · exact bind (mapM fun _ _ => asString _ _) fun _ _ => ok _
  · exact asString path value

theorem readPreset (members : List (String × Json)) : Overflows reason (readPreset members) := by
  rw [Config.readPreset]
  split
  · exact ok none
  · refine bind (asString _ _) fun name _ => ?_
    split
    · exact ok _
    · exact refuse _

theorem readSeed (members : List (String × Json)) : Overflows reason (readSeed members) := by
  rw [Config.readSeed]
  split
  · exact ok none
  · exact ok none
  · exact (asInteger _ _).map some

theorem readPrecision (members : List (String × Json)) :
    Overflows reason (readPrecision members) :=
  bind (memberOr fun _ => asMembers _ _) fun _ _ =>
    bind (memberOr fun _ => asInteger _ _) fun _ _ => bind (require _ _) fun _ _ => ok _

theorem readSettings (members : List (String × Json)) :
    Overflows (HasLargeDefault members) (readSettings members) := by
  refine bind (memberOr fun _ => asMembers _ _) fun settings given => mapM ?_
  rintro ⟨name, value⟩ member
  change Overflows _ (readSetting name value)
  rw [readSetting]
  cases known : Setting.ofName? name with
  | none => exact refuse _
  | some setting =>
      refine map ?_ _
      cases value with
      | float value => exact ok value
      | int integer =>
          rw [asNumber]
          cases held : Number.ofInt? integer with
          | some value => exact ok value
          | none =>
              have present := member?_of_memberOr_asMembers given (List.ne_nil_of_mem member)
              exact fun _ => ⟨settings, name, setting, integer, present, member, known, held⟩
      | _ => exact refuse _

/-- Defaults are the only numbers that are converted. -/
theorem ofJson_object (members : List (String × Json)) :
    Overflows (HasLargeDefault members) (ofJson (.object members)) := by
  refine bind (asMembers "root" (.object members)) fun others equal => ?_
  cases equal
  exact bind (readPreset members) fun _ _ => bind (memberOr fun _ => asString _ _) fun _ _ =>
    bind (memberOr fun _ => map (asString _ _) _) fun _ _ =>
    bind (memberOr fun _ => asRules _ _) fun _ _ =>
    bind (memberOr fun _ => asInteger _ _) fun _ _ => bind (require _ _) fun _ _ =>
    bind (require _ _) fun _ _ => bind (readSeed members) fun _ _ =>
    bind (readSettings members) fun _ _ => bind (readPrecision members) fun _ _ => ok _

end Overflows

/-! Members that are put into a configuration. -/

/-- The members with a seed and a number of iterations put in, where these are given. -/
def edit (seed : Option Int) (iterations : Option Nat) (members : List (String × Json)) :
    List (String × Json) :=
  let seeded := seed.elim members fun seed => Association.put members "seed" (.int seed)
  iterations.elim seeded fun iterations => Association.put seeded "iterations" (.int iterations)

/-- The configuration with another seed and another number of iterations, where these are given. -/
def withValues (config : Config) (seed : Option Int) (iterations : Option Nat) : Config :=
  { config with
    seed := seed.or config.seed
    iterations := iterations.getD config.iterations }

section

variable (config : Config) (seed : Option Int) (iterations : Option Nat)

theorem name_withValues : (config.withValues seed iterations).name = config.name :=
  rfl

theorem precision_withValues : (config.withValues seed iterations).precision = config.precision :=
  rfl

theorem grammar_withValues : (config.withValues seed iterations).grammar = config.grammar :=
  rfl

end

theorem member?_put_of_ne {key other : String} (apart : other ≠ key)
    (members : List (String × Json)) (value : Json) :
    Json.member? (Association.put members key value) other = Json.member? members other := by
  rw [Json.member?, Association.lookup_put, beq_eq_false_iff_ne.mpr apart]
  rfl

theorem member?_put_self (members : List (String × Json)) (key : String) (value : Json) :
    Json.member? (Association.put members key value) key = some value := by
  rw [Json.member?, Association.lookup_put, beq_self_eq_true]
  rfl

theorem memberOr_put_of_ne {key other : String} (apart : other ≠ key)
    (members : List (String × Json)) (value : Json) (standard : α)
    (read : String → Json → Except ConfigFailure α) :
    memberOr (Association.put members key value) other standard read =
      memberOr members other standard read := by
  rw [memberOr, memberOr, member?_put_of_ne apart]

theorem readPreset_put_of_ne {key : String} (apart : "preset" ≠ key)
    (members : List (String × Json)) (value : Json) :
    readPreset (Association.put members key value) = readPreset members := by
  rw [readPreset, readPreset, member?_put_of_ne apart]

theorem readSeed_put_of_ne {key : String} (apart : "seed" ≠ key)
    (members : List (String × Json)) (value : Json) :
    readSeed (Association.put members key value) = readSeed members := by
  rw [readSeed, readSeed, member?_put_of_ne apart]

theorem readSettings_put_of_ne {key : String} (apart : "defaults" ≠ key)
    (members : List (String × Json)) (value : Json) :
    readSettings (Association.put members key value) = readSettings members := by
  rw [readSettings, readSettings, memberOr_put_of_ne apart]

theorem readPrecision_put_of_ne {key : String} (apart : "export" ≠ key)
    (members : List (String × Json)) (value : Json) :
    readPrecision (Association.put members key value) = readPrecision members := by
  rw [readPrecision, readPrecision, memberOr_put_of_ne apart]

namespace Reads

variable {members : List (String × Json)} {config : Config}

theorem put_seed (reads : Reads members config) (seed : Int) :
    Reads (Association.put members "seed" (.int seed)) { config with seed := some seed } := by
  rcases reads with ⟨preset_eq, name_eq, start_eq, rules_eq, iterations_eq, visible, nonnegative,
    _, settings_eq, precision_eq⟩
  have seed_eq : readSeed (Association.put members "seed" (.int seed)) = .ok (some seed) := by
    rw [readSeed, member?_put_self]
    rfl
  exact .intro
    ((readPreset_put_of_ne (by decide) _ _).trans preset_eq)
    ((memberOr_put_of_ne (by decide) _ _ _ _).trans name_eq)
    ((memberOr_put_of_ne (by decide) _ _ _ _).trans start_eq)
    ((memberOr_put_of_ne (by decide) _ _ _ _).trans rules_eq)
    ((memberOr_put_of_ne (by decide) _ _ _ _).trans iterations_eq)
    visible nonnegative seed_eq
    ((readSettings_put_of_ne (by decide) _ _).trans settings_eq)
    ((readPrecision_put_of_ne (by decide) _ _).trans precision_eq)

theorem put_iterations (reads : Reads members config) (iterations : Nat) :
    Reads (Association.put members "iterations" (.int iterations)) { config with iterations } := by
  rcases reads with ⟨preset_eq, name_eq, start_eq, rules_eq, _, visible, _, seed_eq, settings_eq,
    precision_eq⟩
  have iterations_eq (standard : Int) :
      memberOr (Association.put members "iterations" (.int iterations)) "iterations" standard
        asInteger = .ok (iterations : Int) := by
    rw [memberOr, member?_put_self]
    rfl
  exact .intro
    ((readPreset_put_of_ne (by decide) _ _).trans preset_eq)
    ((memberOr_put_of_ne (by decide) _ _ _ _).trans name_eq)
    ((memberOr_put_of_ne (by decide) _ _ _ _).trans start_eq)
    ((memberOr_put_of_ne (by decide) _ _ _ _).trans rules_eq)
    (iterations_eq _) visible (Int.natCast_nonneg iterations)
    ((readSeed_put_of_ne (by decide) _ _).trans seed_eq)
    ((readSettings_put_of_ne (by decide) _ _).trans settings_eq)
    ((readPrecision_put_of_ne (by decide) _ _).trans precision_eq)

theorem edit (reads : Reads members config) (seed : Option Int) (iterations : Option Nat) :
    Reads (Config.edit seed iterations members) (config.withValues seed iterations) := by
  cases seed with
  | none =>
      cases iterations with
      | none => exact reads
      | some iterations => exact reads.put_iterations iterations
  | some seed =>
      cases iterations with
      | none => exact reads.put_seed seed
      | some iterations => exact (reads.put_seed seed).put_iterations iterations

end Reads

end Config

end GrowthGrammar
