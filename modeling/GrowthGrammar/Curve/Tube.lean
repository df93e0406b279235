import GrowthGrammar.Curve.Transport
import GrowthGrammar.Geometry.Solid

/-!
# Tubes

A tube sweeps a circle along a curve. A stroke collects the points of a tube.
-/

namespace GrowthGrammar

namespace Solid

def tubePlace (radial ring column : Nat) : Nat :=
  (radial + 1) * ring + column

def tubeCell (radial ring column : Nat) : List Face :=
  let a := tubePlace radial ring column
  let b := tubePlace radial (ring + 1) column
  let c := tubePlace radial (ring + 1) (column + 1)
  let d := tubePlace radial ring (column + 1)
  [{ a := a, b := b, c := d }, { a := b, b := c, c := d }]

/-- The faces of a tube of `count` segments, between `count + 1` rings of `radial + 1` vertices. -/
def tubeFaces (count radial : Nat) : List Face :=
  (List.range count).flatMap fun ring =>
    (List.range radial).flatMap fun column => tubeCell radial ring column

variable [Scalar α]

/-- The vertices of a ring; the last one closes it. -/
@[specialize] def ring (center : Vec3 α) (frame : PathFrame α) (radius : α) (radial : Nat) :
    List (Vec3 α) :=
  (List.range (radial + 1)).map fun i =>
    let angle := Scalar.stepPoint (Scalar.two * Scalar.pi) radial i
    center + ((frame.normal.scale (-Scalar.cos angle)) +
      (frame.binormal.scale (Scalar.sin angle))).scale radius

/-- An open tube along a curve. -/
def tube (curve : Curve α) (tubular : Int) (radius : α) (radialSegments : Int) :
    Except CurveError (Solid α) := do
  let count := segments 1 tubular
  let radial := segments 3 radialSegments
  let fractions := (List.range (count + 1)).map (Scalar.stepPoint Scalar.one count)
  let centers ← fractions.mapM curve.pointAt
  let frames := PathFrame.ofTangents (← curve.tangentsAt fractions)
  return { vertices := (centers.zip frames).flatMap fun (center, frame) =>
             ring center frame radius radial
           faces := tubeFaces count radial }

end Solid

/-- The points of a line that is being drawn. -/
structure Stroke where
  points : Array (Vec3 Float)

namespace Stroke

def empty : Stroke :=
  { points := #[] }

def start (point : Vec3 Float) : Stroke :=
  { points := #[point] }

def add (stroke : Stroke) (point : Vec3 Float) : Stroke :=
  { points := stroke.points.push point }

def segmentsPerPoint : Nat := 5

def radialSegments : Nat := 8

/-- The tube through the points, if there are at least two. -/
def tube? (stroke : Stroke) (radius tension : Float) : Except CurveError (Option (Solid Float)) :=
  if stroke.points.size ≤ 1 then .ok none
  else do
    let curve ← Curve.ofPoints stroke.points tension
    return some (← Solid.tube curve (stroke.points.size * segmentsPerPoint : Nat) radius
      radialSegments)

end Stroke

end GrowthGrammar
