import GrowthGrammar.Proofs.Config.Reading

/-!
# Presets are shorthand

The name of a preset stands for the members of the preset that a configuration does not have itself.
-/

namespace GrowthGrammar

open Fallible

namespace Preset

/-- What a configuration has to hold to be the preset. -/
def members (preset : Preset) : List (String × Json) :=
  [("name", .string preset.name), ("axiom", .string preset.start), ("rules", .string preset.rules),
    ("iterations", .int preset.iterations)]

/-- The members without the key of a preset, and behind them those of the preset that are not among
them. -/
def expand (preset : Preset) (members : List (String × Json)) : List (String × Json) :=
  (members.filter fun (key, _) => key != "preset") ++
    preset.members.filter fun (key, _) => (Json.member? members key).isNone

end Preset

namespace Config

section

variable {preset : Preset} {members : List (String × Json)} {key : String}

theorem member?_expand_preset : Json.member? (preset.expand members) "preset" = none := by
  have kept := Association.lookup_filter (fun key => key != "preset") members "preset"
  have filled := Association.lookup_filter (fun key => (Json.member? members key).isNone)
    preset.members "preset"
  have absent : preset.members.lookup "preset" = none := rfl
  rw [Json.member?, Preset.expand, List.lookup_append, kept, filled, absent, ite_self]
  rfl

theorem member?_expand (different : key ≠ "preset") :
    Json.member? (preset.expand members) key =
      (Json.member? members key).or (Json.member? preset.members key) := by
  have kept := Association.lookup_filter (fun key => key != "preset") members key
  have filled := Association.lookup_filter (fun key => (Json.member? members key).isNone)
    preset.members key
  rw [if_pos (bne_iff_ne.mpr different)] at kept
  rw [Json.member?, Preset.expand, List.lookup_append, kept, filled]
  change (Json.member? members key).or
    (if (Json.member? members key).isNone then Json.member? preset.members key else none) = _
  cases Json.member? members key with
  | none => rfl
  | some own => rfl

/-- A member that the preset has is read as it is, or else as that of the preset. -/
theorem memberOr_expand {value : Json} {inherited : α} {read : String → Json → Except ConfigFailure α}
    (different : key ≠ "preset") (filled : Json.member? preset.members key = some value)
    (read_eq : read key value = .ok inherited) (standard : α) :
    memberOr (preset.expand members) key standard read = memberOr members key inherited read := by
  rw [memberOr, memberOr, member?_expand different, filled]
  cases Json.member? members key with
  | none => exact read_eq
  | some own => rfl

/-- All other members are read as they are. -/
theorem member?_expand_of_none (different : key ≠ "preset")
    (absent : Json.member? preset.members key = none) :
    Json.member? (preset.expand members) key = Json.member? members key := by
  rw [member?_expand different, absent, Option.or_none]

end

/-- A configuration with a known preset, in whatever letter case it is named, is read like the one
that has the members of the preset in its place where it lacks them: it becomes the same
configuration, or is refused with the same error. -/
theorem ofJson_expand {members : List (String × Json)} {name : String} {preset : Preset}
    (given : Json.member? members "preset" = some (.string name)) (known : preset ∈ Preset.all)
    (named : preset.name.toList = name.toList.map Preset.lowerChar) :
    ofJson (.object members) = ofJson (.object (preset.expand members)) := by
  have ofPreset : readPreset members = .ok (some preset) := by
    simp only [readPreset, given, asString, ok_bind, Preset.find?_eq_some_iff.mpr ⟨known, named⟩]
    rfl
  have withoutPreset : readPreset (preset.expand members) = .ok none := by
    rw [readPreset, member?_expand_preset]
    rfl
  have name_eq : memberOr (preset.expand members) "name" "L-System" asString =
      memberOr members "name" preset.name asString :=
    memberOr_expand (by decide) rfl rfl _
  have start_eq :
      memberOr (preset.expand members) "axiom" none
          (fun path value => (asString path value).map some) =
        memberOr members "axiom" (some preset.start)
          (fun path value => (asString path value).map some) :=
    memberOr_expand (by decide) rfl rfl _
  have rules_eq : memberOr (preset.expand members) "rules" "" asRules =
      memberOr members "rules" preset.rules asRules :=
    memberOr_expand (by decide) rfl rfl _
  have iterations_eq : memberOr (preset.expand members) "iterations" 0 asInteger =
      memberOr members "iterations" (preset.iterations : Int) asInteger :=
    memberOr_expand (by decide) rfl rfl _
  -- No preset has the other members.
  have seed_eq : readSeed (preset.expand members) = readSeed members := by
    rw [readSeed, readSeed, member?_expand_of_none (by decide) rfl]
  have settings_eq : readSettings (preset.expand members) = readSettings members := by
    rw [readSettings, readSettings, memberOr, memberOr, member?_expand_of_none (by decide) rfl]
  have precision_eq : readPrecision (preset.expand members) = readPrecision members := by
    rw [readPrecision, readPrecision, memberOr, memberOr, member?_expand_of_none (by decide) rfl]
  simp only [ofJson, asMembers, ok_bind, ofPreset, withoutPreset, Option.map_some, Option.map_none,
    Option.getD_some, Option.getD_none, name_eq, start_eq, rules_eq, iterations_eq, seed_eq,
    settings_eq, precision_eq]

/-- A configuration that overrides two members of its preset, and one with two invalid members. -/
theorem ofJson_expand_of_sakura :
    let overriding : List (String × Json) :=
      [("iterations", .int 2), ("preset", .string "SaKuRa"), ("axiom", .string "sphere")]
    let refused : List (String × Json) :=
      [("export", .null), ("preset", .string "sakura"),
        ("rules", .array [.string "A -> B", .int 1])]
    Preset.sakura.expand overriding =
        [("iterations", .int 2), ("axiom", .string "sphere"), ("name", .string "sakura"),
          ("rules", .string Preset.sakura.rules)] ∧
      (∃ config, ofJson (.object overriding) = .ok config ∧
        ofJson (.object (Preset.sakura.expand overriding)) = .ok config) ∧
      ofJson (.object (Preset.sakura.expand refused)) =
        .error (.invalid (.notString "rules[1]")) := by
  intro overriding refused
  have accepted : (ofJson (.object overriding)).isOk := by decide +kernel
  rcases exists_ok_of_isOk accepted with ⟨config, config_eq⟩
  have same : ofJson (.object overriding) = ofJson (.object (Preset.sakura.expand overriding)) :=
    ofJson_expand (by rfl) (List.mem_singleton.mpr rfl) (by decide)
  have refusedAlike : ofJson (.object refused) = ofJson (.object (Preset.sakura.expand refused)) :=
    ofJson_expand (by rfl) (List.mem_singleton.mpr rfl) (by decide)
  exact ⟨by rfl, ⟨config, config_eq, same.symm.trans config_eq⟩, refusedAlike.symm.trans (by rfl)⟩

end Config

end GrowthGrammar
