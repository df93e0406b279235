import GrowthGrammar.Geometry.Scalar

/-!
# Vectors and matrices

Vectors of space and matrices of three rows. Sums of products start from zero and add the products
in the order of the axes.
-/

namespace GrowthGrammar

structure Vec3 (α : Type) where
  x : α
  y : α
  z : α
  deriving DecidableEq, BEq, Repr

namespace Vec3

def map (change : α → β) (v : Vec3 α) : Vec3 β :=
  { x := change v.x, y := change v.y, z := change v.z }

def zipWith (combine : α → β → γ) (v : Vec3 α) (w : Vec3 β) : Vec3 γ :=
  { x := combine v.x w.x, y := combine v.y w.y, z := combine v.z w.z }

def toList (v : Vec3 α) : List α :=
  [v.x, v.y, v.z]

variable [Scalar α]

def zero : Vec3 α :=
  { x := Scalar.zero, y := Scalar.zero, z := Scalar.zero }

instance : Add (Vec3 α) where
  add v w := { x := v.x + w.x, y := v.y + w.y, z := v.z + w.z }

instance : Sub (Vec3 α) where
  sub v w := { x := v.x - w.x, y := v.y - w.y, z := v.z - w.z }

@[inline] def scale (factor : α) (v : Vec3 α) : Vec3 α :=
  { x := factor * v.x, y := factor * v.y, z := factor * v.z }

@[inline] def divide (v : Vec3 α) (divisor : α) : Vec3 α :=
  { x := v.x / divisor, y := v.y / divisor, z := v.z / divisor }

@[inline] def dot (v w : Vec3 α) : α :=
  Scalar.zero + v.x * w.x + v.y * w.y + v.z * w.z

@[inline] def cross (v w : Vec3 α) : Vec3 α :=
  { x := v.y * w.z - v.z * w.y
    y := v.z * w.x - v.x * w.z
    z := v.x * w.y - v.y * w.x }

@[inline] def norm (v : Vec3 α) : α :=
  Scalar.sqrt (v.dot v)

end Vec3

structure Matrix3 (α : Type) where
  first : Vec3 α
  second : Vec3 α
  third : Vec3 α
  deriving DecidableEq, BEq, Repr

namespace Matrix3

def rows (m : Matrix3 α) : List (Vec3 α) :=
  [m.first, m.second, m.third]

def transpose (m : Matrix3 α) : Matrix3 α :=
  { first := { x := m.first.x, y := m.second.x, z := m.third.x }
    second := { x := m.first.y, y := m.second.y, z := m.third.y }
    third := { x := m.first.z, y := m.second.z, z := m.third.z } }

variable [Scalar α]

def identity : Matrix3 α :=
  { first := { x := Scalar.one, y := Scalar.zero, z := Scalar.zero }
    second := { x := Scalar.zero, y := Scalar.one, z := Scalar.zero }
    third := { x := Scalar.zero, y := Scalar.zero, z := Scalar.one } }

@[inline] def apply (m : Matrix3 α) (v : Vec3 α) : Vec3 α :=
  { x := v.dot m.first, y := v.dot m.second, z := v.dot m.third }

def mul (m n : Matrix3 α) : Matrix3 α :=
  let columns := n.transpose
  let row (v : Vec3 α) : Vec3 α :=
    { x := v.dot columns.first, y := v.dot columns.second, z := v.dot columns.third }
  { first := row m.first, second := row m.second, third := row m.third }

end Matrix3

end GrowthGrammar
