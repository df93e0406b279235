import GrowthGrammar.Geometry.Vector
import GrowthGrammar.Text.Quoted

/-!
# Frames

A frame is a position with an orientation. The columns of its rotation are its own axes in world
coordinates; the third one points forward.
-/

namespace GrowthGrammar

inductive Axis
  | x
  | y
  | z
  deriving DecidableEq, Repr

namespace Axis

def ofName? : String → Option Axis
  | "x" => some x
  | "y" => some y
  | "z" => some z
  | _ => none

variable [Scalar α]

/-- The rotation about an axis by an angle in radians. -/
def rotation (axis : Axis) (angle : α) : Matrix3 α :=
  let c := Scalar.cos angle
  let s := Scalar.sin angle
  let zero : α := Scalar.zero
  let one : α := Scalar.one
  match axis with
  | x => { first := ⟨one, zero, zero⟩, second := ⟨zero, c, -s⟩, third := ⟨zero, s, c⟩ }
  | y => { first := ⟨c, zero, s⟩, second := ⟨zero, one, zero⟩, third := ⟨-s, zero, c⟩ }
  | z => { first := ⟨c, -s, zero⟩, second := ⟨s, c, zero⟩, third := ⟨zero, zero, one⟩ }

end Axis

structure Frame (α : Type) where
  position : Vec3 α
  rotation : Matrix3 α
  deriving DecidableEq, BEq, Repr

namespace Frame

def forward (frame : Frame α) : Vec3 α :=
  frame.rotation.transpose.third

variable [Scalar α]

def identity : Frame α :=
  { position := .zero, rotation := .identity }

/-- At the origin, looking up along the second axis of the world. -/
def initial : Frame α :=
  let zero : α := Scalar.zero
  let one : α := Scalar.one
  { position := .zero
    rotation := { first := ⟨one, zero, zero⟩, second := ⟨zero, zero, one⟩
                  third := ⟨zero, -one, zero⟩ } }

/-- Rotate about one of the frame's own axes. -/
def rotate (frame : Frame α) (axis : Axis) (degrees : α) : Frame α :=
  { frame with rotation := frame.rotation.mul (axis.rotation (Scalar.radians degrees)) }

def translate (frame : Frame α) (distance : α) : Frame α :=
  { frame with
    position := frame.position + (frame.forward.map fun coordinate => coordinate * distance) }

/-- A point given in the frame's own coordinates, in world coordinates. -/
@[inline] def transform (frame : Frame α) (point : Vec3 α) : Vec3 α :=
  frame.rotation.apply point + frame.position

end Frame

/-! Frames of doubles are equal when their numbers are, and are hashed by their bits. -/

def Frame.bits (frame : Frame Float) : List UInt64 :=
  (frame.position :: frame.rotation.rows).flatMap fun v => v.toList.map Float.toBits

instance : Hashable (Frame Float) where
  hash frame := hash frame.bits

/-! Rotating by an angle that is read from a command can fail. -/

inductive RotationError
  | infiniteAngle
  | unknownAxis (name : String)
  deriving DecidableEq, Repr

def RotationError.message : RotationError → String
  | infiniteAngle => "math domain error"
  | unknownAxis name => "unknown rotation axis " ++ Text.quote name

namespace Frame

def hasCosine (degrees : Float) : Bool :=
  !(Scalar.radians degrees).isInf

/-- An infinite angle has no cosine. -/
def rotate? (frame : Frame Float) (axis : Axis) (degrees : Float) :
    Except RotationError (Frame Float) :=
  if hasCosine degrees then .ok (frame.rotate axis degrees) else .error .infiniteAngle

/-- Rotate about an axis given by its name, which is looked at after the angle. -/
def rotateNamed? (frame : Frame Float) (name : String) (degrees : Float) :
    Except RotationError (Frame Float) :=
  match Axis.ofName? name with
  | some axis => frame.rotate? axis degrees
  | none => .error (if hasCosine degrees then .unknownAxis name else .infiniteAngle)

end Frame

end GrowthGrammar
