import GrowthGrammar.Grammar.Parse
import GrowthGrammar.Json.Read
import GrowthGrammar.Preset
import GrowthGrammar.Random.Twister
import GrowthGrammar.Turtle.Defaults

/-!
# Configurations

A configuration names a grammar, written out or through a preset, and says how often to rewrite it,
from which seed, and how to write the result. It is read from a JSON value and checked.
-/

namespace GrowthGrammar

inductive ConfigError
  | notNumber (path : String)
  | notInteger (path : String)
  | notString (path : String)
  | notObject (path : String)
  | unknownPreset (name : String)
  | blankStart
  | negativeIterations
  | unknownSetting (name : String)
  | exportPrecision
  | precision
  | invalidJson (path : String) (error : Json.ReadError)
  | noGeometry
  deriving DecidableEq, Repr

def ConfigError.message : ConfigError → String
  | notNumber path => path ++ " must be a number"
  | notInteger path => path ++ " must be an integer"
  | notString path => path ++ " must be a string"
  | notObject path => path ++ " must be an object"
  | unknownPreset name =>
      "unknown preset " ++ Text.quote name ++ " (known: " ++ Preset.known ++ ")"
  | blankStart => "axiom must be non-empty"
  | negativeIterations => "iterations must be >= 0"
  | unknownSetting name =>
      "defaults." ++ name ++ " is not a turtle default (expected one of: " ++
        ", ".intercalate (Setting.all.map Setting.name) ++ ")"
  | exportPrecision => "export.precision must be between 0 and 10"
  | precision => "precision must be between 0 and 10"
  | invalidJson path error => "Invalid JSON in " ++ path ++ ": " ++ error.message
  | noGeometry => "Config produces no geometry"

/-- A configuration is invalid, or has an integer that no double can hold where a number is
wanted. -/
inductive ConfigFailure
  | invalid (error : ConfigError)
  | integerTooLarge
  deriving DecidableEq, Repr

/-- Settings keep the order in which they are given. -/
structure Config where
  name : String
  start : String
  rules : String
  iterations : Nat
  seed : Option Int
  settings : List (Setting × Float)
  precision : Nat

namespace Config

/-! Checks of single values. `path` says where a value stands. -/

def refuse (error : ConfigError) : Except ConfigFailure α :=
  .error (.invalid error)

def require (condition : Bool) (error : ConfigError) : Except ConfigFailure Unit :=
  if condition then .ok () else refuse error

def asNumber (path : String) : Json → Except ConfigFailure Float
  | .float value => .ok value
  | .int value =>
      match Number.ofInt? value with
      | some value => .ok value
      | none => .error .integerTooLarge
  | _ => refuse (.notNumber path)

def asInteger (path : String) : Json → Except ConfigFailure Int
  | .int value => .ok value
  | _ => refuse (.notInteger path)

def asString (path : String) : Json → Except ConfigFailure String
  | .string value => .ok value
  | _ => refuse (.notString path)

def asMembers (path : String) : Json → Except ConfigFailure (List (String × Json))
  | .object members => .ok members
  | _ => refuse (.notObject path)

/-- Rules are one text, or a list of texts that stand below each other. -/
def asRules (path : String) : Json → Except ConfigFailure String
  | .array items => do
      let rules ← items.zipIdx.mapM fun (item, place) =>
        asString (path ++ "[" ++ toString place ++ "]") item
      return "\n".intercalate rules
  | value => asString path value

/-! Members that may be missing. -/

def memberOr (members : List (String × Json)) (key : String) (standard : α)
    (read : String → Json → Except ConfigFailure α) : Except ConfigFailure α :=
  match Json.member? members key with
  | some value => read key value
  | none => .ok standard

def readPreset (members : List (String × Json)) : Except ConfigFailure (Option Preset) := do
  match Json.member? members "preset" with
  | none => return none
  | some value =>
      let name ← asString "preset" value
      match Preset.find? name with
      | some preset => return some preset
      | none => refuse (.unknownPreset name)

def readSeed (members : List (String × Json)) : Except ConfigFailure (Option Int) :=
  match Json.member? members "seed" with
  | none => .ok none
  | some .null => .ok none
  | some value => (asInteger "seed" value).map some

def readSetting (key : String) (value : Json) : Except ConfigFailure (Setting × Float) :=
  match Setting.ofName? key with
  | some setting => (asNumber ("defaults." ++ key) value).map fun value => (setting, value)
  | none => refuse (.unknownSetting key)

def readSettings (members : List (String × Json)) :
    Except ConfigFailure (List (Setting × Float)) := do
  let defaults ← memberOr members "defaults" [] asMembers
  defaults.mapM fun (key, value) => readSetting key value

def standardPrecision : Int := 5

def isPrecision (places : Int) : Bool :=
  0 ≤ places && places ≤ 10

def readPrecision (members : List (String × Json)) : Except ConfigFailure Nat := do
  let options ← memberOr members "export" [] asMembers
  let places ← memberOr options "precision" standardPrecision
    fun _ value => asInteger "export.precision" value
  require (isPrecision places) .exportPrecision
  return places.toNat

/-- Read a configuration. What is given goes before what the preset has; the first check that fails
decides. -/
def ofJson (value : Json) : Except ConfigFailure Config := do
  let members ← asMembers "root" value
  let preset ← readPreset members
  let name ← memberOr members "name" ((preset.map Preset.name).getD "L-System") asString
  let start ← memberOr members "axiom" (preset.map Preset.start)
    fun path value => (asString path value).map some
  let rules ← memberOr members "rules" ((preset.map Preset.rules).getD "") asRules
  let iterations ← memberOr members "iterations"
    ((preset.map fun preset => (preset.iterations : Int)).getD 0) asInteger
  let start := start.getD ""
  require (!Text.isAllBlank start.toList) .blankStart
  require (0 ≤ iterations) .negativeIterations
  let seed ← readSeed members
  let settings ← readSettings members
  let precision ← readPrecision members
  return { name, start, rules, iterations := iterations.toNat, seed, settings, precision }

def grammar (config : Config) : Except ParseError Grammar :=
  Grammar.parse config.start (ruleLines config.rules)

def defaults (config : Config) : Defaults :=
  Defaults.standard.setAll config.settings

/-- The random source of a run: from the seed given, else from that of the configuration, else from
the entropy at hand. -/
def randomState (config : Config) (seed : Option Int) (entropy : Int) : Twister :=
  .ofSeed ((seed.or config.seed).getD entropy)

end Config

end GrowthGrammar
