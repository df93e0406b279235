import GrowthGrammar.Geometry.Vector

/-!
# Splines

An open Catmull-Rom spline through at least two points, with a tension. At either end a point beyond
the end, the reflection of its neighbour, takes part.
-/

namespace GrowthGrammar

structure Spline (α : Type) where
  points : Array (Vec3 α)
  tension : α
  twoPoints : 2 ≤ points.size

namespace Spline

variable [Scalar α]

def ofPoints? (points : Array (Vec3 α)) (tension : α) : Option (Spline α) :=
  if twoPoints : 2 ≤ points.size then some { points, tension, twoPoints } else none

/-- The number of pieces between the points. -/
def pieces (spline : Spline α) : Nat :=
  spline.points.size - 1

@[inline] def reflect (center point : Vec3 α) : Vec3 α :=
  center.scale Scalar.two - point

/-- The points in order, behind the reflected one before the first and before the one behind the
last. -/
def control (spline : Spline α) (place : Fin (spline.points.size + 2)) : Vec3 α :=
  have _ := spline.twoPoints
  if place.val = 0 then reflect spline.points[0] spline.points[1]
  else if _inside : place.val ≤ spline.points.size then spline.points[place.val - 1]
  else reflect spline.points[spline.points.size - 1] spline.points[spline.points.size - 2]

/-- One coordinate of a piece between its second and third control point, at a weight between zero
and one. -/
@[inline] def blend (tension before start stop behind weight : α) : α :=
  let startSlope := tension * (stop - before)
  let stopSlope := tension * (behind - start)
  let square := -(Scalar.three * start) + Scalar.three * stop - Scalar.two * startSlope - stopSlope
  let cube := Scalar.two * start - Scalar.two * stop + startSlope + stopSlope
  start + startSlope * weight + square * (weight * weight) + cube * Scalar.cube weight

/-- A point on one of the pieces. -/
def pieceAt (spline : Spline α) (piece : Fin spline.pieces) (weight : α) : Vec3 α :=
  have bound : piece.val + 3 < spline.points.size + 2 := by
    have below := piece.isLt
    simp only [pieces] at below
    omega
  let before := spline.control ⟨piece.val, by omega⟩
  let start := spline.control ⟨piece.val + 1, by omega⟩
  let stop := spline.control ⟨piece.val + 2, by omega⟩
  let behind := spline.control ⟨piece.val + 3, by omega⟩
  { x := blend spline.tension before.x start.x stop.x behind.x weight
    y := blend spline.tension before.y start.y stop.y behind.y weight
    z := blend spline.tension before.z start.z stop.z behind.z weight }

/-- The piece and the weight at a parameter from zero to one. The end of the last piece belongs to
it. A parameter that is not a number has no place. -/
def locate? (spline : Spline α) (t : α) : Option (Fin spline.pieces × α) :=
  have _ := spline.twoPoints
  let position := Scalar.ofNat spline.pieces * Scalar.clamp Scalar.zero Scalar.one t
  (Scalar.wholePart? position).map fun whole =>
    if inside : whole < spline.pieces then (⟨whole, inside⟩, position - Scalar.ofNat whole)
    else (⟨spline.pieces - 1, by simp only [pieces]; omega⟩, Scalar.one)

def point? (spline : Spline α) (t : α) : Option (Vec3 α) :=
  (spline.locate? t).map fun (piece, weight) => spline.pieceAt piece weight

end Spline

end GrowthGrammar
