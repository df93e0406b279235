import GrowthGrammar.Text.Quoted

/-!
# Default values of commands

The values that commands without parameters take.
-/

namespace GrowthGrammar

inductive Setting
  | length
  | angle
  | radius
  | size
  deriving DecidableEq, Repr

namespace Setting

def all : List Setting :=
  [length, angle, radius, size]

def name : Setting → String
  | length => "length"
  | angle => "angle"
  | radius => "radius"
  | size => "size"

def ofName? (name : String) : Option Setting :=
  all.find? fun setting => setting.name = name

end Setting

structure Defaults where
  length : Float
  angle : Float
  radius : Float
  size : Float

namespace Defaults

def standard : Defaults :=
  { length := 0.2, angle := 25, radius := 0.05, size := 0.3 }

def get (defaults : Defaults) : Setting → Float
  | .length => defaults.length
  | .angle => defaults.angle
  | .radius => defaults.radius
  | .size => defaults.size

def set (defaults : Defaults) (setting : Setting) (value : Float) : Defaults :=
  match setting with
  | .length => { defaults with length := value }
  | .angle => { defaults with angle := value }
  | .radius => { defaults with radius := value }
  | .size => { defaults with size := value }

def setAll (defaults : Defaults) (values : List (Setting × Float)) : Defaults :=
  values.foldl (fun defaults (setting, value) => defaults.set setting value) defaults

/-- Values by name. Names that are no settings are ignored. -/
def setNamed (defaults : Defaults) (values : List (String × Float)) : Defaults :=
  defaults.setAll (values.filterMap fun (name, value) =>
    (Setting.ofName? name).map fun setting => (setting, value))

/-- One warning for each name that is ignored. -/
def warnings (values : List (String × Float)) : List String :=
  (values.filter fun (name, _) => (Setting.ofName? name).isNone).map fun (name, _) =>
    "ignoring unknown turtle default " ++ Text.quote name

end Defaults

end GrowthGrammar
