import GrowthGrammar.Proofs.Config.Reading
import GrowthGrammar.Proofs.Number.Decimal
import GrowthGrammar.Proofs.Text.Span
import GrowthGrammar.Proofs.Turtle.Overrides

/-!
# Valid configurations

The conditions on a configuration in the order in which they count, and the values that it carries
when it meets them. A value is accepted exactly when all conditions hold, and otherwise refused for
the first that does not.
-/

namespace GrowthGrammar

open Fallible

/-! ## Kinds of values -/

namespace Json

def text? : Json → Option String
  | string text => some text
  | _ => none

/-- A truth value is no integer. -/
def integer? : Json → Option Int
  | int value => some value
  | _ => none

theorem integer?_eq_some_iff {value : Json} {integer : Int} :
    value.integer? = some integer ↔ value = .int integer := by
  cases value <;> simp [integer?]

/-- The double of a number, which for an integer is the nearest one. -/
def number? : Json → Option Float
  | int value => some (Number.ofInt value)
  | float value => some value
  | _ => none

/-- The members of an object. Other values have none. -/
def members : Json → List (String × Json)
  | object members => members
  | _ => []

/-- The members of the object under a key, if there is one. -/
def membersAt (members : List (String × Json)) (key : String) : List (String × Json) :=
  ((member? members key).map Json.members).getD []

end Json

namespace Config

/-! ## Conditions -/

/-- What has to hold, and the error that tells that it does not. -/
structure Condition where
  holds : Prop
  error : ConfigError

/-- All conditions hold up to one that does not, which has the error. -/
inductive FirstViolated : List Condition → ConfigError → Prop
  | here {condition : Condition} {later : List Condition} :
      ¬condition.holds → FirstViolated (condition :: later) condition.error
  | behind {condition : Condition} {later : List Condition} {error : ConfigError} :
      condition.holds → FirstViolated later error → FirstViolated (condition :: later) error

namespace Condition

def isString (path : String) (value : Json) : Condition :=
  ⟨∃ text, value = .string text, .notString path⟩

def isInteger (path : String) (value : Json) : Condition :=
  ⟨∃ integer, value = .int integer, .notInteger path⟩

def isNumber (path : String) (value : Json) : Condition :=
  ⟨(∃ integer, value = .int integer) ∨ ∃ double, value = .float double, .notNumber path⟩

def isObject (path : String) (value : Json) : Condition :=
  ⟨∃ members, value = .object members, .notObject path⟩

end Condition

/-- Conditions on a member that may be missing. -/
def whenGiven (members : List (String × Json)) (key : String)
    (conditions : Json → List Condition) : List Condition :=
  ((Json.member? members key).map conditions).getD []

/-- The name of a preset is given in any letter case. -/
def presetConditions (value : Json) : List Condition :=
  .isString "preset" value ::
    value.text?.toList.map fun name =>
      ⟨∃ preset ∈ Preset.all, preset.name.toList = name.toList.map Preset.lowerChar,
        .unknownPreset name⟩

def rulesConditions : Json → List Condition
  | .array items => items.zipIdx.map fun (item, place) =>
      .isString ("rules[" ++ toString place ++ "]") item
  | value => [.isString "rules" value]

def seedConditions : Json → List Condition
  | .null => []
  | value => [.isInteger "seed" value]

def settingConditions (key : String) (value : Json) : List Condition :=
  [⟨key ∈ Setting.all.map Setting.name, .unknownSetting key⟩, .isNumber ("defaults." ++ key) value]

def defaultsConditions (value : Json) : List Condition :=
  .isObject "defaults" value :: value.members.flatMap fun (key, value) => settingConditions key value

def precisionConditions (value : Json) : List Condition :=
  [.isInteger "export.precision" value,
    ⟨∀ places, value = .int places → 0 ≤ places ∧ places ≤ 10, .exportPrecision⟩]

def exportConditions (value : Json) : List Condition :=
  .isObject "export" value :: whenGiven value.members "precision" precisionConditions

/-! ## Values -/

section

variable (members : List (String × Json))

def preset? : Option Preset :=
  ((Json.member? members "preset").bind Json.text?).bind Preset.find?

/-- The value under a key; without one the value of the preset, and without a preset the standard
value. -/
def chosen? (key : String) (own : Json → Option α) (inherited : Preset → α) (standard : Option α) :
    Option α :=
  match Json.member? members key with
  | some value => own value
  | none => ((preset? members).map inherited).or standard

/-- The items of a list stand below each other. -/
def rulesText? : Json → Option String
  | .array items => (items.mapM Json.text?).map ("\n".intercalate ·)
  | value => value.text?

def name? : Option String :=
  chosen? members "name" Json.text? Preset.name (some "L-System")

def start? : Option String :=
  chosen? members "axiom" Json.text? Preset.start none

def rules? : Option String :=
  chosen? members "rules" rulesText? Preset.rules (some "")

def iterations? : Option Int :=
  chosen? members "iterations" Json.integer? (fun preset => preset.iterations) (some 0)

def precision? : Option Int :=
  match Json.member? (Json.membersAt members "export") "precision" with
  | some value => value.integer?
  | none => some 5

end

/-- The setting has the name and the number of the member. -/
def Sets (entry : String × Json) (setting : Setting × Float) : Prop :=
  setting.1.name = entry.1 ∧ entry.2.number? = some setting.2

/-- The configuration has the values that the members give it. -/
structure Carries (members : List (String × Json)) (config : Config) : Prop where
  name : name? members = some config.name
  start : start? members = some config.start
  rules : rules? members = some config.rules
  iterations : iterations? members = some (config.iterations : Int)
  seed : config.seed = (Json.member? members "seed").bind Json.integer?
  settings : List.Forall₂ Sets (Json.membersAt members "defaults") config.settings
  precision : precision? members = some (config.precision : Int)

/-- The conditions on a configuration. Whether there is a start word, and whether the number of
iterations is negative, counts only behind the kinds of all values that a preset may have. -/
def conditions (value : Json) : List Condition :=
  let members := value.members
  List.flatten
    [[.isObject "root" value],
      whenGiven members "preset" presetConditions,
      whenGiven members "name" fun name => [.isString "name" name],
      whenGiven members "axiom" fun start => [.isString "axiom" start],
      whenGiven members "rules" rulesConditions,
      whenGiven members "iterations" fun iterations => [.isInteger "iterations" iterations],
      [⟨∃ start, start? members = some start ∧ ¬Text.AllBlank start.toList, .blankStart⟩],
      [⟨∀ iterations, iterations? members = some iterations → 0 ≤ iterations,
        .negativeIterations⟩],
      whenGiven members "seed" seedConditions,
      whenGiven members "defaults" defaultsConditions,
      whenGiven members "export" exportConditions]

/-! ## The first violated condition -/

namespace FirstViolated

variable {first second : List Condition} {error other : ConfigError}

theorem append_left (violated : FirstViolated first error) (second : List Condition) :
    FirstViolated (first ++ second) error := by
  induction violated with
  | here fails => exact .here fails
  | behind holds _ induction => exact .behind holds induction

theorem append_right (hold : ∀ condition ∈ first, condition.holds)
    (violated : FirstViolated second error) : FirstViolated (first ++ second) error := by
  induction first with
  | nil => exact violated
  | cons condition first induction =>
      rcases List.forall_mem_cons.mp hold with ⟨head, rest⟩
      exact .behind head (induction rest)

theorem not_hold (violated : FirstViolated first error) :
    ¬∀ condition ∈ first, condition.holds := by
  intro hold
  induction violated with
  | here fails => exact fails (hold _ List.mem_cons_self)
  | behind _ _ induction =>
      exact induction fun condition member => hold condition (List.mem_cons_of_mem _ member)

theorem unique (violated : FirstViolated first error) (again : FirstViolated first other) :
    error = other := by
  induction violated with
  | here fails =>
      cases again with
      | here _ => rfl
      | behind holds _ => exact absurd holds fails
  | behind holds _ induction =>
      cases again with
      | here fails => exact absurd holds fails
      | behind _ later => exact induction later

end FirstViolated

/-- A check accepts, with a result of some kind, when all conditions hold, and otherwise refuses for
the first that does not. -/
inductive Checks (conditions : List Condition) (result : α → Prop) :
    Except ConfigFailure α → Prop
  | accepted {value : α} : (∀ condition ∈ conditions, condition.holds) → result value →
      Checks conditions result (.ok value)
  | refused {error : ConfigError} : FirstViolated conditions error →
      Checks conditions result (.error (.invalid error))

namespace Checks

variable {first second : List Condition} {result : α → Prop} {check : Except ConfigFailure α}

theorem exists_ok_iff (checks : Checks first result check) :
    (∃ value, check = .ok value) ↔ ∀ condition ∈ first, condition.holds := by
  cases checks with
  | accepted hold _ => exact ⟨fun _ => hold, fun _ => ⟨_, rfl⟩⟩
  | refused violated => exact ⟨nofun, fun hold => absurd hold violated.not_hold⟩

theorem eq_error_iff (checks : Checks first result check) {failure : ConfigFailure} :
    check = .error failure ↔ ∃ error, failure = .invalid error ∧ FirstViolated first error := by
  cases checks with
  | accepted hold _ => exact ⟨nofun, fun ⟨_, _, violated⟩ => absurd hold violated.not_hold⟩
  | refused violated =>
      constructor
      · intro equal
        cases equal
        exact ⟨_, rfl, violated⟩
      · rintro ⟨other, rfl, again⟩
        rw [violated.unique again]

theorem result_of_eq_ok (checks : Checks first result check) {value : α}
    (accepted : check = .ok value) : result value := by
  cases checks with
  | accepted _ has =>
      cases accepted
      exact has
  | refused _ => cases accepted

theorem ok {value : α} (has : result value) : Checks [] result (.ok value) :=
  .accepted (List.forall_mem_nil _) has

theorem refuse (condition : Condition) (fails : ¬condition.holds) (later : List Condition) :
    Checks (condition :: later) result (refuse condition.error) :=
  .refused (.here fails)

theorem behind (hold : ∀ condition ∈ first, condition.holds) (checks : Checks second result check) :
    Checks (first ++ second) result check := by
  cases checks with
  | accepted holdSecond has => exact .accepted (List.forall_mem_append.mpr ⟨hold, holdSecond⟩) has
  | refused violated => exact .refused (violated.append_right hold)

theorem bind {property : β → Prop} {start : Except ConfigFailure β}
    {next : β → Except ConfigFailure α} (checks : Checks first property start)
    (continues : ∀ value, property value → Checks second result (next value)) :
    Checks (first ++ second) result (start >>= next) := by
  cases checks with
  | accepted hold has => exact (continues _ has).behind hold
  | refused violated => exact .refused (violated.append_left second)

theorem map {property : β → Prop} {start : Except ConfigFailure β} {change : β → α}
    (checks : Checks first property start) (has : ∀ value, property value → result (change value)) :
    Checks first result (start.map change) := by
  cases checks with
  | accepted hold property => exact .accepted hold (has _ property)
  | refused violated => exact .refused violated

theorem mapM {conditions : β → List Condition} {relation : β → α → Prop}
    {read : β → Except ConfigFailure α} {items : List β}
    (each : ∀ item ∈ items, Checks (conditions item) (relation item) (read item)) :
    Checks (items.flatMap conditions) (List.Forall₂ relation items) (items.mapM read) := by
  induction items with
  | nil => exact ok .nil
  | cons item items induction =>
      rcases List.forall_mem_cons.mp each with ⟨head, rest⟩
      rw [List.mapM_cons, List.flatMap_cons]
      refine bind head fun value related => ?_
      have collected : Checks (items.flatMap conditions) (List.Forall₂ relation (item :: items))
          ((items.mapM read).map (value :: ·)) :=
        (induction rest).map fun values allRelated => .cons related allRelated
      exact collected

theorem require {condition : Condition} {test : Bool} (exactly : test = true ↔ condition.holds) :
    Checks [condition] (fun _ => condition.holds) (require test condition.error) := by
  cases test with
  | true => exact .accepted (List.forall_mem_singleton.mpr (exactly.mp rfl)) (exactly.mp rfl)
  | false => exact refuse condition (fun holds => absurd (exactly.mpr holds) Bool.false_ne_true) []

/-! ## Single values -/

theorem asString (path : String) (value : Json) :
    Checks [.isString path value] (value.text? = some ·) (asString path value) := by
  cases value with
  | string text => exact .accepted (List.forall_mem_singleton.mpr ⟨text, rfl⟩) rfl
  | _ => exact refuse (.isString path _) (by simp [Condition.isString]) []

theorem asInteger (path : String) (value : Json) :
    Checks [.isInteger path value] (value.integer? = some ·) (asInteger path value) := by
  cases value with
  | int integer => exact .accepted (List.forall_mem_singleton.mpr ⟨integer, rfl⟩) rfl
  | _ => exact refuse (.isInteger path _) (by simp [Condition.isInteger]) []

theorem asMembers (path : String) (value : Json) :
    Checks [.isObject path value] (value.members = ·) (asMembers path value) := by
  cases value with
  | object members => exact .accepted (List.forall_mem_singleton.mpr ⟨members, rfl⟩) rfl
  | _ => exact refuse (.isObject path _) (by simp [Condition.isObject]) []

theorem asNumber (path : String) {value : Json}
    (inRange : ∀ integer, value = .int integer → Number.InDoubleRange integer) :
    Checks [.isNumber path value] (value.number? = some ·) (asNumber path value) := by
  cases value with
  | int integer =>
      rw [Config.asNumber, Number.ofInt?_eq_some (inRange integer rfl)]
      exact .accepted (List.forall_mem_singleton.mpr (.inl ⟨integer, rfl⟩)) rfl
  | float double => exact .accepted (List.forall_mem_singleton.mpr (.inr ⟨double, rfl⟩)) rfl
  | _ => exact refuse (.isNumber path _) (by simp [Condition.isNumber]) []

theorem mapM_text?_of_forall₂ {items : List Json} {start : Nat} {texts : List String}
    (related : List.Forall₂ (fun entry text => entry.1.text? = some text) (items.zipIdx start)
      texts) : items.mapM Json.text? = some texts := by
  induction items generalizing start texts with
  | nil =>
      cases related
      rfl
  | cons item items induction =>
      rw [List.zipIdx_cons] at related
      cases related with
      | cons head rest =>
          rw [List.mapM_cons, head, induction rest]
          rfl

theorem asRules (value : Json) :
    Checks (rulesConditions value) (rulesText? value = some ·) (asRules "rules" value) := by
  cases value with
  | array items =>
      have read : Checks (rulesConditions (.array items))
          (List.Forall₂ (fun entry text => entry.1.text? = some text) items.zipIdx)
          (items.zipIdx.mapM fun entry : Json × Nat =>
            Config.asString ("rules[" ++ toString entry.2 ++ "]") entry.1) := by
        rw [rulesConditions, List.map_eq_flatMap]
        exact mapM fun entry _ => asString ("rules[" ++ toString entry.2 ++ "]") entry.1
      have joined : Checks (rulesConditions (.array items)) (rulesText? (.array items) = some ·)
          ((items.zipIdx.mapM fun entry : Json × Nat =>
            Config.asString ("rules[" ++ toString entry.2 ++ "]") entry.1).map
              ("\n".intercalate ·)) := by
        refine read.map fun texts related => ?_
        rw [rulesText?, mapM_text?_of_forall₂ related]
        rfl
      exact joined
  | string text => exact asString "rules" (.string text)
  | _ => exact asString "rules" _

/-! ## Members -/

section

variable {members : List (String × Json)} {key : String}

theorem memberOr {conditions : Json → List Condition} {standard : α}
    {read : String → Json → Except ConfigFailure α}
    (given : ∀ value, Json.member? members key = some value →
      Checks (conditions value) result (read key value))
    (absent : Json.member? members key = none → result standard) :
    Checks (whenGiven members key conditions) result (memberOr members key standard read) := by
  rw [whenGiven, Config.memberOr]
  cases found : Json.member? members key with
  | none => exact ok (absent found)
  | some value => exact given value found

/-- What is read of a member is its own value, or else that of the preset. -/
theorem chosen {conditions : Json → List Condition} {own : Json → Option α}
    {read : String → Json → Except ConfigFailure α}
    (given : ∀ value, Checks (conditions value) (own value = some ·) (read key value))
    (inherited : Preset → α) (standard : α) :
    Checks (whenGiven members key conditions)
      (chosen? members key own inherited (some standard) = some ·)
      (Config.memberOr members key (((preset? members).map inherited).getD standard) read) := by
  refine memberOr (fun value found => ?_) fun missing => ?_
  · simp only [chosen?, found]
    exact given value
  · simp only [chosen?, missing, Option.or_some]

theorem readPreset (members : List (String × Json)) :
    Checks (whenGiven members "preset" presetConditions) (preset? members = ·)
      (readPreset members) := by
  rw [Config.readPreset, whenGiven, preset?]
  cases Json.member? members "preset" with
  | none => exact ok rfl
  | some value =>
      refine bind (asString "preset" value) fun name isName => ?_
      simp only [Option.bind_some, isName, Option.toList_some, List.map_cons, List.map_nil]
      cases found : Preset.find? name with
      | none =>
          refine refuse ⟨_, .unknownPreset name⟩ ?_ []
          simpa [Preset.find?] using found
      | some preset =>
          have known := Preset.find?_eq_some_iff.mp found
          exact .accepted (List.forall_mem_singleton.mpr ⟨preset, known⟩) rfl

theorem readStart (members : List (String × Json)) :
    Checks (whenGiven members "axiom" fun start => [.isString "axiom" start])
      (start? members = ·)
      (Config.memberOr members "axiom" ((preset? members).map Preset.start)
        fun path value => (Config.asString path value).map some) := by
  refine memberOr (fun value found => ?_) fun missing => ?_
  · simp only [start?, chosen?, found]
    exact (asString "axiom" value).map fun text isText => isText
  · simp only [start?, chosen?, missing, Option.or_none]

theorem readSeed (members : List (String × Json)) :
    Checks (whenGiven members "seed" seedConditions)
      (· = (Json.member? members "seed").bind Json.integer?) (readSeed members) := by
  rw [Config.readSeed, whenGiven]
  cases Json.member? members "seed" with
  | none => exact ok rfl
  | some value =>
      have read : Checks [.isInteger "seed" value] (· = value.integer?)
          ((Config.asInteger "seed" value).map some) :=
        (asInteger "seed" value).map fun integer isInteger => isInteger.symm
      cases value with
      | null => exact ok rfl
      | _ => exact read

theorem readSetting (key : String) {value : Json}
    (inRange : ∀ integer, value = .int integer → Number.InDoubleRange integer) :
    Checks (settingConditions key value) (Sets (key, value)) (readSetting key value) := by
  rw [Config.readSetting]
  cases found : Setting.ofName? key with
  | none =>
      refine refuse ⟨_, .unknownSetting key⟩ ?_ _
      simpa [Setting.ofName?] using found
  | some setting =>
      have name_eq := Setting.name_of_ofName? found
      have known : key ∈ Setting.all.map Setting.name :=
        List.mem_map.mpr ⟨setting, List.mem_of_find?_eq_some found, name_eq.symm⟩
      refine behind (List.forall_mem_singleton.mpr known) ?_
      exact (asNumber ("defaults." ++ key) inRange).map fun number isNumber =>
        ⟨name_eq.symm, isNumber⟩

theorem readSettings
    (inRange : ∀ name integer, (name, .int integer) ∈ Json.membersAt members "defaults" →
      Number.InDoubleRange integer) :
    Checks (whenGiven members "defaults" defaultsConditions)
      (List.Forall₂ Sets (Json.membersAt members "defaults")) (readSettings members) := by
  rw [Config.readSettings, Config.memberOr, whenGiven]
  cases found : Json.member? members "defaults" with
  | none =>
      simp only [Json.membersAt, found]
      exact ok .nil
  | some value =>
      have members_eq : Json.membersAt members "defaults" = value.members := by
        rw [Json.membersAt, found]
        rfl
      rw [members_eq] at inRange ⊢
      refine bind (asMembers "defaults" value) fun settings settings_eq => ?_
      rw [← settings_eq]
      refine mapM fun entry member => readSetting entry.1 fun integer isInteger => ?_
      exact inRange entry.1 integer (isInteger ▸ member)

theorem readPrecision (members : List (String × Json)) :
    Checks (whenGiven members "export" exportConditions)
      (fun precision : Nat => precision? members = some (precision : Int)) (readPrecision members) := by
  rw [Config.readPrecision, Config.memberOr, whenGiven, precision?, Json.membersAt]
  cases Json.member? members "export" with
  | none => exact ok rfl
  | some value =>
      simp only [Option.map_some, Option.getD_some, exportConditions]
      refine bind (asMembers "export" value) fun options options_eq => ?_
      rw [← options_eq, Config.memberOr]
      cases Json.member? value.members "precision" with
      | none => exact ok rfl
      | some value =>
          refine bind (asInteger "export.precision" value) fun places isInteger => ?_
          obtain rfl := Json.integer?_eq_some_iff.mp isInteger
          refine bind (require ?_) fun _ inRange => ok ?_
          · simp [isPrecision]
          · rw [Int.toNat_of_nonneg (inRange places rfl).1]
            rfl

end

end Checks

/-- A missing start word counts as a blank one. -/
theorem isVisible_iff (start? : Option String) :
    (!Text.isAllBlank (start?.getD "").toList) = true ↔
      ∃ start, start? = some start ∧ ¬Text.AllBlank start.toList := by
  cases start? with
  | none => simp [Text.isAllBlank]
  | some start => simp [Text.isAllBlank, Text.AllBlank]

theorem checks_ofJson {value : Json}
    (inRange : ∀ name integer, (name, .int integer) ∈ Json.membersAt value.members "defaults" →
      Number.InDoubleRange integer) :
    Checks (conditions value) (Carries value.members) (ofJson value) := by
  simp only [conditions, List.flatten_cons, List.flatten_nil]
  refine .bind (.asMembers "root" value) fun members members_eq => ?_
  rw [← members_eq]
  refine .bind (.readPreset _) fun preset preset_eq => ?_
  rw [← preset_eq]
  refine .bind (.chosen (.asString "name") Preset.name "L-System") fun name name_eq => ?_
  refine .bind (.readStart _) fun start start_eq => ?_
  refine .bind (.chosen .asRules Preset.rules "") fun rules rules_eq => ?_
  refine .bind (.chosen (.asInteger "iterations") _ 0) fun iterations iterations_eq => ?_
  refine .bind (.require ?_) fun _ visible => ?_
  · rw [start_eq]
    exact isVisible_iff start
  refine .bind (.require ?_) fun _ nonnegative => ?_
  · simp [iterations?, iterations_eq]
  refine .bind (.readSeed _) fun seed seed_eq => ?_
  refine .bind (.readSettings inRange) fun settings settings_eq => ?_
  refine .bind (.readPrecision _) fun precision precision_eq => .ok ?_
  rcases visible with ⟨text, text_eq, _⟩
  have nonneg : 0 ≤ iterations := nonnegative iterations iterations_eq
  obtain rfl : start = some text := start_eq.symm.trans text_eq
  refine ⟨name_eq, start_eq, rules_eq, ?_, seed_eq, settings_eq, precision_eq⟩
  rw [Int.toNat_of_nonneg nonneg]
  exact iterations_eq

/-- A value in whose defaults no integer is beyond the doubles is accepted just if it meets all
conditions, and the configuration then carries its values. Otherwise it is refused with the error of
the first condition that is violated. -/
theorem ofJson_accepts_valid {value : Json}
    (inRange : ∀ name integer, (name, .int integer) ∈ Json.membersAt value.members "defaults" →
      Number.InDoubleRange integer) :
    ((∃ config, ofJson value = .ok config) ↔
      ∀ condition ∈ conditions value, condition.holds) ∧
    (∀ config, ofJson value = .ok config → Carries value.members config) ∧
    ∀ failure, ofJson value = .error failure ↔
      ∃ error, failure = .invalid error ∧ FirstViolated (conditions value) error := by
  have checks := checks_ofJson inRange
  exact ⟨checks.exists_ok_iff, fun config => checks.result_of_eq_ok, fun failure =>
    checks.eq_error_iff⟩

/-- A preset in another case with some values of its own, and a value with several violations. -/
theorem ofJson_accepts_valid_of_preset :
    let valid : Json := .object
      [("preset", .string "SaKuRa"), ("name", .string "Oak"), ("seed", .null),
        ("defaults", .object [("size", .float 0.5), ("angle", .int 30)]), ("export", .object [])]
    let refused : Json := .object
      [("defaults", .null), ("axiom", .string " "), ("iterations", .bool true)]
    ((∀ name integer, (name, .int integer) ∈ Json.membersAt valid.members "defaults" →
      Number.InDoubleRange integer) ∧
      ∃ config, ofJson valid = .ok config ∧ (∀ condition ∈ conditions valid, condition.holds) ∧
        config.name = "Oak" ∧ config.rules = Preset.sakura.rules ∧
        config.settings.length = 2 ∧ config.precision = 5) ∧
      (∀ name integer, (name, .int integer) ∈ Json.membersAt refused.members "defaults" →
        Number.InDoubleRange integer) ∧
      FirstViolated (conditions refused) (.notInteger "iterations") := by
  intro valid refused
  have inRange : ∀ name integer,
      (name, .int integer) ∈ Json.membersAt valid.members "defaults" →
        Number.InDoubleRange integer := by
    intro name integer member
    have angle : name = "angle" ∧ integer = 30 := by
      simpa [valid, Json.membersAt, Json.members, Json.member?, List.lookup_cons] using member
    rw [angle.2]
    decide +kernel
  have noDefaults : ∀ name integer,
      (name, .int integer) ∈ Json.membersAt refused.members "defaults" →
        Number.InDoubleRange integer :=
    fun _ _ member => absurd member List.not_mem_nil
  rcases ofJson_accepts_valid inRange with ⟨accepted_iff, carries, _⟩
  rcases exists_ok_of_isOk (by decide +kernel : (ofJson valid).isOk) with ⟨config, accepted⟩
  rcases carries config accepted with
    ⟨name_eq, _, rules_eq, _, _, settings_eq, precision_eq⟩
  refine ⟨⟨inRange, config, accepted, accepted_iff.mp ⟨config, accepted⟩,
    (Option.some.inj name_eq).symm, (Option.some.inj rules_eq).symm,
    settings_eq.length_eq.symm, ?_⟩, noDefaults, ?_⟩
  · exact_mod_cast (Option.some.inj precision_eq).symm
  · rcases ((ofJson_accepts_valid noDefaults).2.2 _).mp
      (by rfl : ofJson refused = .error (.invalid (.notInteger "iterations"))) with
      ⟨error, same, violated⟩
    cases same
    exact violated

end Config

end GrowthGrammar
