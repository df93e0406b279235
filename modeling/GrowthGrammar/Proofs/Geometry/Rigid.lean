import Mathlib
import GrowthGrammar.Geometry.Frame
import GrowthGrammar.Proofs.Geometry.Products

/-!
# Frames stay rigid

However a frame is rotated about its own axes and moved forward, without rounding its axes stay
perpendicular to each other, of length one, and in their order around. So what is placed in a frame
keeps its shape.
-/

namespace GrowthGrammar

/-! ## Rotations -/

section

variable [ExactScalar α]

namespace Matrix3

/-- Orthogonal, and not mirrored. -/
def IsRotation (m : Matrix3 α) : Prop :=
  m.toMatrix ∈ Matrix.specialOrthogonalGroup (Fin 3) α

theorem isRotation_iff {m : Matrix3 α} :
    m.IsRotation ↔ m.toMatrix ∈ Matrix.orthogonalGroup (Fin 3) α ∧ m.toMatrix.det = 1 :=
  Matrix.mem_specialOrthogonalGroup_iff

theorem IsRotation.mul {m n : Matrix3 α} (first : m.IsRotation) (second : n.IsRotation) :
    (m.mul n).IsRotation := by
  rw [IsRotation, toMatrix_mul]
  exact Submonoid.mul_mem _ first second

theorem isRotation_identity : (identity : Matrix3 α).IsRotation := by
  rw [IsRotation, toMatrix_identity]
  exact Submonoid.one_mem _

/-- The transpose of a rotation undoes it. -/
theorem isRotation_of_mul_transpose {m : Matrix3 α} (inverse : m.mul m.transpose = identity)
    (det_eq : m.toMatrix.det = 1) : m.IsRotation := by
  rw [isRotation_iff, Matrix.mem_orthogonalGroup_iff]
  refine ⟨?_, det_eq⟩
  calc m.toMatrix * m.toMatrix.transpose
    _ = (m.mul m.transpose).toMatrix := by rw [toMatrix_mul, toMatrix_transpose]
    _ = 1 := by rw [inverse, toMatrix_identity]

/-- A rotation keeps scalar products. -/
theorem IsRotation.apply_dot_apply {m : Matrix3 α} (rotates : m.IsRotation)
    (v w : Vec3 α) : (m.apply v).dot (m.apply w) = v.dot w := by
  have orthogonal := (isRotation_iff.mp rotates).1
  have inverse : m.transpose.mul m = identity := by
    apply toMatrix_injective
    rw [toMatrix_mul, toMatrix_transpose, toMatrix_identity]
    exact (Matrix.mem_orthogonalGroup_iff' (Fin 3) α).mp orthogonal
  calc (m.apply v).dot (m.apply w)
    _ = v.dot ((m.transpose.mul m).apply w) := by rw [apply_dot, apply_apply]
    _ = v.dot w := by rw [inverse, identity_apply]

end Matrix3

namespace Axis

theorem rotation_mul_transpose (axis : Axis) (angle : α) :
    (axis.rotation angle).mul (axis.rotation angle).transpose = .identity := by
  have circle := ExactScalar.circle angle
  have swapped := (add_comm _ _).trans circle
  cases axis <;> ext <;>
    simp [rotation, Matrix3.mul, Matrix3.transpose, Matrix3.identity, Vec3.dot_eq,
      Scalar.zero_exact, Scalar.one_exact, circle, swapped, mul_comm]

/-- The opposite angle mirrors the sine, which is where rotations are not symmetric. -/
theorem rotation_neg (axis : Axis) (angle : α) :
    axis.rotation (-angle) = (axis.rotation angle).transpose := by
  cases axis <;>
    simp [rotation, Matrix3.transpose, ExactScalar.cos_neg, ExactScalar.sin_neg]

theorem isRotation_rotation (axis : Axis) (angle : α) : (axis.rotation angle).IsRotation := by
  apply Matrix3.isRotation_of_mul_transpose (axis.rotation_mul_transpose angle)
  have circle := ExactScalar.circle angle
  rw [Matrix.det_fin_three]
  cases axis <;>
    simp [rotation, Matrix3.toMatrix, Scalar.zero_exact, Scalar.one_exact, circle]

end Axis

end

/-! ## Steps of a frame -/

namespace Frame

/-- A change of a frame. -/
inductive Step (α : Type)
  | rotate (axis : Axis) (degrees : α)
  | translate (distance : α)

section

variable [Scalar α]

def step (frame : Frame α) : Step α → Frame α
  | .rotate axis degrees => frame.rotate axis degrees
  | .translate distance => frame.translate distance

/-- The frame behind some steps, one after the other. -/
def after (frame : Frame α) (steps : List (Step α)) : Frame α :=
  steps.foldl step frame

end

section

variable [ExactScalar α]

/-- Turned, and neither mirrored nor stretched nor sheared. -/
structure IsRigid (frame : Frame α) : Prop where
  orthogonal : frame.rotation.toMatrix ∈ Matrix.orthogonalGroup (Fin 3) α
  det_eq_one : frame.rotation.toMatrix.det = 1
  /-- Ways between points keep their scalar products, and so their lengths and angles. -/
  ways : ∀ a b c d : Vec3 α, (frame.transform a - frame.transform b).dot
    (frame.transform c - frame.transform d) = (a - b).dot (c - d)
  distances : ∀ a b : Vec3 α, (frame.transform a - frame.transform b).norm = (a - b).norm

theorem transform_sub_transform (frame : Frame α) (a b : Vec3 α) :
    frame.transform a - frame.transform b = frame.rotation.apply (a - b) := by
  rw [transform, transform, Vec3.add_sub_add_right, Matrix3.apply_sub]

theorem isRigid_of_isRotation {frame : Frame α} (rotates : frame.rotation.IsRotation) :
    frame.IsRigid where
  orthogonal := (Matrix3.isRotation_iff.mp rotates).1
  det_eq_one := (Matrix3.isRotation_iff.mp rotates).2
  ways a b c d := by
    rw [transform_sub_transform, transform_sub_transform, rotates.apply_dot_apply]
  distances a b := by
    rw [transform_sub_transform, Vec3.norm, rotates.apply_dot_apply, Vec3.norm]

theorem isRotation_step {frame : Frame α} (rotates : frame.rotation.IsRotation)
    (change : Step α) : (frame.step change).rotation.IsRotation := by
  cases change with
  | rotate axis degrees => exact rotates.mul (axis.isRotation_rotation _)
  | translate distance => exact rotates

theorem isRotation_after {frame : Frame α} (rotates : frame.rotation.IsRotation)
    (steps : List (Step α)) : (frame.after steps).rotation.IsRotation := by
  induction steps generalizing frame with
  | nil => exact rotates
  | cons change steps induction => exact induction (isRotation_step rotates change)

theorem isRotation_identity : (identity : Frame α).rotation.IsRotation :=
  Matrix3.isRotation_identity

theorem isRotation_initial : (initial : Frame α).rotation.IsRotation := by
  apply Matrix3.isRotation_of_mul_transpose
  · ext <;>
      simp [initial, Matrix3.mul, Matrix3.transpose, Matrix3.identity, Vec3.dot_eq,
        Scalar.zero_exact, Scalar.one_exact]
  · rw [Matrix.det_fin_three]
    simp [initial, Matrix3.toMatrix, Scalar.zero_exact, Scalar.one_exact]

/-! ## Steps taken back -/

theorem rotate_rotate_neg (frame : Frame α) (axis : Axis) (degrees : α) :
    (frame.rotate axis degrees).rotate axis (-degrees) = frame := by
  rw [rotate, rotate, Scalar.radians_neg, Axis.rotation_neg, Matrix3.mul_assoc,
    Axis.rotation_mul_transpose, Matrix3.mul_identity]

theorem translate_translate_neg (frame : Frame α) (distance : α) :
    (frame.translate distance).translate (-distance) = frame := by
  have back (start ahead : α) : start + ahead * distance + ahead * -distance = start := by ring
  simp only [translate]
  congr 1
  ext <;> exact back _ _

/-- A frame that starts upright or along the axes of the world stays rigid on every way. From
wherever it is each step can be taken back. -/
theorem steps_keep_rigid :
    (∀ steps : List (Step α), (initial.after steps).IsRigid ∧ (identity.after steps).IsRigid) ∧
      ∀ frame : Frame α,
        (∀ axis degrees, (frame.rotate axis degrees).rotate axis (-degrees) = frame) ∧
          ∀ distance, (frame.translate distance).translate (-distance) = frame := by
  constructor
  · intro steps
    exact ⟨isRigid_of_isRotation (isRotation_after isRotation_initial steps),
      isRigid_of_isRotation (isRotation_after isRotation_identity steps)⟩
  · intro frame
    exact ⟨rotate_rotate_neg frame, translate_translate_neg frame⟩

end

/-- Real numbers are such scalars: a frame that is turned down by a right angle lies along the axes
of the world and moves along the third one, and behind a further turn it is rigid. -/
theorem steps_keep_rigid_of_turned :
    (initial : Frame ℝ).after [.rotate .x 90, .translate 2] =
        { position := ⟨0, 0, 2⟩, rotation := .identity } ∧
      ((initial : Frame ℝ).after [.rotate .x 90, .translate 2, .rotate .z 45]).IsRigid := by
  have right : Scalar.radians (90 : ℝ) = Real.pi / 2 := by
    show 90 * (Real.pi / ((180 : ℕ) : ℝ)) = Real.pi / 2
    push_cast
    ring
  have cosine : Scalar.cos (Real.pi / 2) = (0 : ℝ) := Real.cos_pi_div_two
  have sine : Scalar.sin (Real.pi / 2) = (1 : ℝ) := Real.sin_pi_div_two
  have turned : (initial : Frame ℝ).rotate .x 90 = identity := by
    simp [initial, rotate, identity, Axis.rotation, Matrix3.mul, Matrix3.transpose,
      Matrix3.identity, Vec3.dot_eq, right, cosine, sine]
  have moved : (identity : Frame ℝ).translate 2 =
      { position := ⟨0, 0, 2⟩, rotation := .identity } := by
    have position_eq : (Vec3.zero + (⟨0 * 2, 0 * 2, 1 * 2⟩ : Vec3 ℝ)) = ⟨0, 0, 2⟩ := by
      ext <;> simp [Vec3.zero]
    simpa [identity, translate, forward, Matrix3.identity, Matrix3.transpose, Vec3.map]
      using position_eq
  refine ⟨?_, (steps_keep_rigid.1 _).1⟩
  rw [after, List.foldl_cons, List.foldl_cons, List.foldl_nil, step, step, turned, moved]

end Frame

end GrowthGrammar
