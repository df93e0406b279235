import GrowthGrammar.Curve.Spline

/-!
# Arc length

A spline is measured along a fixed number of chords. The table of lengths turns fractions of the
whole length into parameters of the spline.
-/

namespace GrowthGrammar

/-! Interpolation in a table of places and values, with places in increasing order. -/

section

variable [Scalar α]

/-- The value on a line through two entries of a table. -/
@[inline] def valueBetween (lower upper : α × α) (place : α) : α :=
  if Scalar.le lower.1 place && Scalar.le place lower.1 then lower.2
  else (upper.2 - lower.2) / (upper.1 - lower.1) * (place - lower.1) + lower.2

/-- The value at a place that is not in front of an entry, by the entries from there on. -/
@[specialize] def valueFrom (lower : α × α) (table : List (α × α)) (place : α) : α :=
  match table with
  | [] => lower.2
  | upper :: rest =>
      if Scalar.le upper.1 place then valueFrom upper rest place
      else valueBetween lower upper place

/-- Before the first place the first value holds, and from the last place on the last one. What is
not a number stays as it is. -/
@[specialize] def interpolate (table : List (α × α)) (place : α) : α :=
  match table with
  | [] => place
  | lower :: rest =>
      if Scalar.lt place lower.1 then lower.2
      else if !Scalar.le place place then place
      else valueFrom lower rest place

end

/-- A spline with the lengths from its start to the ends of its chords. -/
structure Curve (α : Type) where
  spline : Spline α
  lengths : List α

inductive CurveError
  | tooFewPoints
  | noPlace (controlPoints : Nat)
  deriving DecidableEq, Repr

def CurveError.message : CurveError → String
  | tooFewPoints => "a curve needs at least two points"
  | noPlace controlPoints =>
      "index -9223372036854775808 is out of bounds for axis 0 with size " ++ toString controlPoints

namespace Curve

def chords : Nat := 200

variable [Scalar α]

/-- The lengths of the way through some points, from the length of the way up to the first. -/
def lengthsAlong (travelled : α) : List (Vec3 α) → List α
  | [] => []
  | [_] => [travelled]
  | point :: next :: rest =>
      travelled :: lengthsAlong (travelled + (next - point).norm) (next :: rest)

def samples (spline : Spline α) : List (Vec3 α) :=
  (List.range (chords + 1)).filterMap fun i => spline.point? (Scalar.stepPoint Scalar.one chords i)

def ofSpline (spline : Spline α) : Curve α :=
  { spline, lengths := lengthsAlong Scalar.zero (samples spline) }

def ofPoints (points : Array (Vec3 α)) (tension : α) : Except CurveError (Curve α) :=
  match Spline.ofPoints? points tension with
  | some spline => .ok (ofSpline spline)
  | none => .error .tooFewPoints

def length (curve : Curve α) : α :=
  curve.lengths.getLast?.getD Scalar.zero

/-- The lengths with the parameters of the ends of the chords. -/
def table (curve : Curve α) : List (α × α) :=
  let count := curve.lengths.length
  curve.lengths.zip ((List.range count).map (Scalar.stepPoint Scalar.one (count - 1)))

/-- The parameter at a fraction of the whole length. On a curve without length they are the same. -/
def parameterAt (curve : Curve α) (fraction : α) : α :=
  if Scalar.le curve.length Scalar.zero then fraction
  else interpolate curve.table (fraction * curve.length)

def point (curve : Curve α) (t : α) : Except CurveError (Vec3 α) :=
  match curve.spline.point? t with
  | some point => .ok point
  | none => .error (.noPlace (curve.spline.points.size + 2))

def pointAt (curve : Curve α) (fraction : α) : Except CurveError (Vec3 α) :=
  curve.point (curve.parameterAt fraction)

/-! Directions. Vectors that are too short to have one take over the direction of another. -/

def shortest : α :=
  Scalar.one / Scalar.ofNat 1000000000000

@[inline] def hasDirection (v : Vec3 α) : Bool :=
  Scalar.lt shortest v.norm

def unit (v : Vec3 α) : Vec3 α :=
  v.divide v.norm

/-- The directions of some vectors behind one with a known direction. -/
def directionsFrom (previous : Vec3 α) : List (Vec3 α) → List (Vec3 α)
  | [] => []
  | v :: rest =>
      let direction := if hasDirection v then unit v else previous
      direction :: directionsFrom direction rest

/-- In front of the first vector with a direction its direction holds, and without any the third
axis. -/
def directions (vectors : List (Vec3 α)) : List (Vec3 α) :=
  let up : Vec3 α := ⟨Scalar.zero, Scalar.zero, Scalar.one⟩
  directionsFrom (((vectors.find? hasDirection).map unit).getD up) vectors

def secantStep : α :=
  Scalar.one / Scalar.ofNat 10000

/-- The vector between two points of the curve close to a fraction of its length. -/
def secantAt (curve : Curve α) (fraction : α) : Except CurveError (Vec3 α) := do
  let t := curve.parameterAt fraction
  let before ← curve.point (Scalar.clamp Scalar.zero Scalar.one (t - secantStep))
  let behind ← curve.point (Scalar.clamp Scalar.zero Scalar.one (t + secantStep))
  return behind - before

def tangentsAt (curve : Curve α) (fractions : List α) : Except CurveError (List (Vec3 α)) :=
  (fractions.mapM curve.secantAt).map directions

end Curve

end GrowthGrammar
