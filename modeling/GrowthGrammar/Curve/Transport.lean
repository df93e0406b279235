import GrowthGrammar.Curve.ArcLength

/-!
# Parallel transport

Axes across the tangents of a path that do not twist about it: from one tangent to the next they
turn by the rotation that takes the one tangent to the other.
-/

namespace GrowthGrammar

/-- A tangent with the two axes of the plane across it. -/
structure PathFrame (α : Type) where
  tangent : Vec3 α
  normal : Vec3 α
  binormal : Vec3 α

namespace PathFrame

variable [Scalar α]

/-- Rotate a vector about an axis of length one. -/
def turn (v axis : Vec3 α) (angle : α) : Vec3 α :=
  let c := Scalar.cos angle
  let s := Scalar.sin angle
  let across := axis.cross v
  let along := axis.dot v
  let part (v across axis : α) : α := v * c + across * s + axis * along * (Scalar.one - c)
  { x := part v.x across.x axis.x, y := part v.y across.y axis.y, z := part v.z across.z axis.z }

/-- The axis of the world along which a vector extends least; the first of several. -/
def leastAxis (v : Vec3 α) : Vec3 α :=
  let zero : α := Scalar.zero
  let one : α := Scalar.one
  let sizes := v.map Scalar.magnitude
  if Scalar.le sizes.x sizes.y && Scalar.le sizes.x sizes.z then ⟨one, zero, zero⟩
  else if Scalar.le sizes.y sizes.z then ⟨zero, one, zero⟩
  else ⟨zero, zero, one⟩

def first (tangent : Vec3 α) : PathFrame α :=
  let across := Curve.unit (tangent.cross (leastAxis tangent))
  let normal := tangent.cross across
  { tangent, normal, binormal := tangent.cross normal }

/-- The normal carried over to the next tangent. Tangents that are parallel or opposite to each
other leave it as it is. -/
def carry (frame : PathFrame α) (tangent : Vec3 α) : Vec3 α :=
  let axis := frame.tangent.cross tangent
  if Curve.hasDirection axis then
    let cosine := Scalar.clamp (-Scalar.one) Scalar.one (frame.tangent.dot tangent)
    turn frame.normal (Curve.unit axis) (Scalar.arccos cosine)
  else frame.normal

def next (frame : PathFrame α) (tangent : Vec3 α) : PathFrame α :=
  let normal := frame.carry tangent
  { tangent, normal, binormal := tangent.cross normal }

def listFrom (frame : PathFrame α) : List (Vec3 α) → List (PathFrame α)
  | [] => [frame]
  | tangent :: rest => frame :: listFrom (frame.next tangent) rest

/-- The frames along a path. -/
def ofTangents : List (Vec3 α) → List (PathFrame α)
  | [] => []
  | tangent :: rest => listFrom (first tangent) rest

end PathFrame

end GrowthGrammar
