import Mathlib
import GrowthGrammar.Proofs.Geometry.Exact

/-!
# Products of vectors and matrices

Where sums and products are exact, matrices of three rows multiply and act on vectors as matrices
do. The laws hold in every ring, and of sines and cosines they need only that these are places on a
circle, mirrored for the opposite angle.
-/

namespace GrowthGrammar

attribute [ext] Vec3 Matrix3

/-- A ring with places on the unit circle. -/
class ExactScalar (α : Type) extends Scalar α, CommRing α where
  ofNat_eq (n : ℕ) : Scalar.ofNat n = (n : α)
  circle (angle : α) :
    Scalar.cos angle * Scalar.cos angle + Scalar.sin angle * Scalar.sin angle = 1
  cos_neg (angle : α) : Scalar.cos (-angle) = Scalar.cos angle
  sin_neg (angle : α) : Scalar.sin (-angle) = -Scalar.sin angle

noncomputable instance : ExactScalar ℝ where
  toScalar := inferInstance
  __ := Real.commRing
  ofNat_eq _ := rfl
  circle angle := by
    have circle := Real.cos_sq_add_sin_sq angle
    rw [sq, sq] at circle
    exact circle
  cos_neg := Real.cos_neg
  sin_neg := Real.sin_neg

namespace Scalar

variable [ExactScalar α]

theorem zero_exact : (Scalar.zero : α) = 0 := by
  rw [Scalar.zero, ExactScalar.ofNat_eq, Nat.cast_zero]

theorem one_exact : (Scalar.one : α) = 1 := by
  rw [Scalar.one, ExactScalar.ofNat_eq, Nat.cast_one]

theorem radians_neg (degrees : α) : radians (-degrees) = -radians degrees :=
  neg_mul degrees _

end Scalar

/-! ## Vectors -/

namespace Vec3

section

variable [Scalar α]

@[simp] theorem add_x (v w : Vec3 α) : (v + w).x = v.x + w.x := rfl

@[simp] theorem add_y (v w : Vec3 α) : (v + w).y = v.y + w.y := rfl

@[simp] theorem add_z (v w : Vec3 α) : (v + w).z = v.z + w.z := rfl

@[simp] theorem sub_x (v w : Vec3 α) : (v - w).x = v.x - w.x := rfl

@[simp] theorem sub_y (v w : Vec3 α) : (v - w).y = v.y - w.y := rfl

@[simp] theorem sub_z (v w : Vec3 α) : (v - w).z = v.z - w.z := rfl

end

section

variable [ExactScalar α]

theorem dot_eq (v w : Vec3 α) : v.dot w = v.x * w.x + v.y * w.y + v.z * w.z := by
  rw [dot, Scalar.zero_exact, zero_add]

theorem add_sub_add_right (v w u : Vec3 α) : v + u - (w + u) = v - w := by
  ext <;> exact add_sub_add_right_eq_sub _ _ _

theorem add_sub_cancel_left (v w : Vec3 α) : v + w - v = w := by
  ext <;> simp

theorem dot_comm (v w : Vec3 α) : v.dot w = w.dot v := by
  rw [dot_eq, dot_eq]
  ring

theorem cross_dot_self_left (v w : Vec3 α) : (v.cross w).dot v = 0 := by
  rw [dot_eq, cross]
  ring

theorem cross_dot_self_right (v w : Vec3 α) : (v.cross w).dot w = 0 := by
  rw [dot_eq, cross]
  ring

theorem cross_dot_cross (v w : Vec3 α) :
    (v.cross w).dot (v.cross w) = v.dot v * w.dot w - v.dot w * v.dot w := by
  simp only [dot_eq, cross]
  ring

/-- The part of a vector across another one. -/
theorem cross_cross_self (v w : Vec3 α) :
    (v.cross w).cross v = w.scale (v.dot v) - v.scale (v.dot w) := by
  ext
  all_goals
    simp only [dot_eq, cross, scale, sub_x, sub_y, sub_z]
    ring

end

end Vec3

/-! ## Matrices -/

namespace Matrix3

def toMatrix (m : Matrix3 α) : Matrix (Fin 3) (Fin 3) α :=
  !![m.first.x, m.first.y, m.first.z;
     m.second.x, m.second.y, m.second.z;
     m.third.x, m.third.y, m.third.z]

theorem toMatrix_injective : Function.Injective (toMatrix (α := α)) := by
  intro m n equal
  have entry (i j : Fin 3) : m.toMatrix i j = n.toMatrix i j := by rw [equal]
  ext
  · exact entry 0 0
  · exact entry 0 1
  · exact entry 0 2
  · exact entry 1 0
  · exact entry 1 1
  · exact entry 1 2
  · exact entry 2 0
  · exact entry 2 1
  · exact entry 2 2

theorem toMatrix_transpose (m : Matrix3 α) : m.transpose.toMatrix = m.toMatrix.transpose := by
  ext i j
  fin_cases i <;> fin_cases j <;> rfl

section

variable [ExactScalar α]

theorem toMatrix_identity : (identity : Matrix3 α).toMatrix = 1 := by
  ext i j
  fin_cases i <;> fin_cases j <;> simp [toMatrix, identity, Scalar.zero_exact, Scalar.one_exact]

theorem toMatrix_mul (m n : Matrix3 α) : (m.mul n).toMatrix = m.toMatrix * n.toMatrix := by
  ext i j
  rw [Matrix.mul_apply, Fin.sum_univ_three]
  fin_cases i <;> fin_cases j <;> exact Vec3.dot_eq _ _

theorem mul_assoc (m n o : Matrix3 α) : (m.mul n).mul o = m.mul (n.mul o) := by
  apply toMatrix_injective
  simp only [toMatrix_mul, Matrix.mul_assoc]

theorem mul_identity (m : Matrix3 α) : m.mul identity = m := by
  apply toMatrix_injective
  rw [toMatrix_mul, toMatrix_identity, Matrix.mul_one]

theorem identity_apply (v : Vec3 α) : identity.apply v = v := by
  ext <;> simp [apply, identity, Vec3.dot_eq, Scalar.zero_exact, Scalar.one_exact]

theorem apply_apply (m n : Matrix3 α) (v : Vec3 α) : m.apply (n.apply v) = (m.mul n).apply v := by
  ext
  all_goals
    simp only [apply, mul, transpose, Vec3.dot_eq]
    ring

theorem apply_sub (m : Matrix3 α) (v w : Vec3 α) : m.apply (v - w) = m.apply v - m.apply w := by
  ext
  all_goals
    simp only [apply, Vec3.dot_eq, Vec3.sub_x, Vec3.sub_y, Vec3.sub_z]
    ring

/-- In a scalar product a matrix moves to the other side as its transpose. -/
theorem apply_dot (m : Matrix3 α) (v w : Vec3 α) :
    (m.apply v).dot w = v.dot (m.transpose.apply w) := by
  simp only [apply, transpose, Vec3.dot_eq]
  ring

end

end Matrix3

end GrowthGrammar
