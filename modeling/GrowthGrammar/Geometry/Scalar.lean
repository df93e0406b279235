import GrowthGrammar.Number.Binary64

/-!
# Scalars

Geometry is written for any kind of number with these operations. It runs on doubles; its laws hold
for exact numbers.
-/

namespace GrowthGrammar

class Scalar (α : Type) extends Add α, Sub α, Mul α, Div α, Neg α where
  ofNat : Nat → α
  pi : α
  /-- The third power, without a rounding in between. -/
  cube : α → α
  sqrt : α → α
  cos : α → α
  sin : α → α
  arccos : α → α
  le : α → α → Bool
  lt : α → α → Bool
  /-- The whole part of a number that is not negative; none of what is not a number. -/
  wholePart? : α → Option Nat

namespace Scalar

variable [Scalar α]

def zero : α := ofNat 0
def one : α := ofNat 1
def two : α := ofNat 2
def three : α := ofNat 3

/-- The closest number between two bounds. What is not a number stays as it is. -/
@[inline] def clamp (least greatest value : α) : α :=
  if lt value least then least else if lt greatest value then greatest else value

@[inline] def magnitude (value : α) : α :=
  if lt value zero then -value else value

/-- The point number `index` of the `count` equal steps from zero to `last`. -/
@[inline] def stepPoint (last : α) (count index : Nat) : α :=
  if index = count then last else ofNat index * (last / ofNat count)

/-- The angle in radians of an angle in degrees. -/
@[inline] def radians (degrees : α) : α :=
  degrees * (pi / ofNat 180)

end Scalar

instance : Scalar Float where
  ofNat := Float.ofNat
  pi := 3.141592653589793
  cube := fun value => Float.pow value 3
  sqrt := Float.sqrt
  cos := Float.cos
  sin := Float.sin
  arccos := Float.acos
  le := fun left right => left ≤ right
  lt := fun left right => left < right
  wholePart? := fun value =>
    match Number.truncate value with
    | .ok whole => some whole.toNat
    | .error _ => none

end GrowthGrammar
