import GrowthGrammar.Number.Binary64

/-!
# Materials

Colour and surface of a mesh, made from a list of numbers.
-/

namespace GrowthGrammar

inductive Side
  | front
  | back
  | double
  deriving DecidableEq, Repr

def Side.name : Side → String
  | front => "front"
  | back => "back"
  | double => "double"

def Side.ofNumber? : Int → Option Side
  | 0 => some front
  | 1 => some back
  | 2 => some double
  | _ => none

/-- The colour has three channels of eight bits, red first. -/
structure Material where
  color : Nat
  roughness : Float
  metalness : Float
  flatShading : Bool
  fog : Bool
  wireframe : Bool
  transparent : Bool
  opacity : Float
  side : Side

namespace Material

def standard : Material :=
  { color := 0xffffff
    roughness := 0.1
    metalness := 0.1
    flatShading := false
    fog := true
    wireframe := false
    transparent := false
    opacity := 1
    side := .front }

/-! Parameters that are missing or not finite leave the standard value. -/

def finiteAt? (parameters : List Float) (place : Nat) : Option Float :=
  (parameters[place]?).filter Number.isFinite

def numberAt (parameters : List Float) (place : Nat) (standard : Float) : Float :=
  (finiteAt? parameters place).getD standard

def flagAt (parameters : List Float) (place : Nat) (standard : Bool) : Bool :=
  match finiteAt? parameters place with
  | some value => value != 0
  | none => standard

/-- The whole part of a parameter. -/
def wholeAt? (parameters : List Float) (place : Nat) : Option Int :=
  match (parameters[place]?).map Number.truncate with
  | some (.ok whole) => some whole
  | _ => none

/-- The lowest 24 bits of a number are its colour. -/
def colorAt (parameters : List Float) (place : Nat) (standard : Nat) : Nat :=
  match wholeAt? parameters place with
  | some whole => (whole % 0x1000000).toNat
  | none => standard

def sideAt (parameters : List Float) (place : Nat) (standard : Side) : Side :=
  ((wholeAt? parameters place).bind Side.ofNumber?).getD standard

def ofParameters (parameters : List Float) : Material :=
  { color := colorAt parameters 0 standard.color
    roughness := numberAt parameters 1 standard.roughness
    metalness := numberAt parameters 2 standard.metalness
    flatShading := flagAt parameters 3 standard.flatShading
    fog := flagAt parameters 4 standard.fog
    wireframe := flagAt parameters 5 standard.wireframe
    transparent := flagAt parameters 6 standard.transparent
    opacity := numberAt parameters 7 standard.opacity
    side := sideAt parameters 8 standard.side }

def channel (material : Material) (place : Nat) : Float :=
  Number.ofInt (material.color >>> (8 * place) % 0x100 : Nat) / 255

def red (material : Material) : Float :=
  material.channel 2

def green (material : Material) : Float :=
  material.channel 1

def blue (material : Material) : Float :=
  material.channel 0

end Material

end GrowthGrammar
