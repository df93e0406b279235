import Mathlib
import GrowthGrammar.Geometry.Vector

/-!
# Exact numbers

The real numbers are scalars, with ideal roots and angles. What geometry does with them is what it
does with doubles when nothing is rounded.
-/

namespace GrowthGrammar

noncomputable instance : Scalar ℝ where
  ofNat n := n
  pi := Real.pi
  cube value := value ^ 3
  sqrt := Real.sqrt
  cos := Real.cos
  sin := Real.sin
  arccos := Real.arccos
  le left right := decide (left ≤ right)
  lt left right := decide (left < right)
  wholePart? value := some ⌊value⌋₊

namespace Scalar

@[simp] theorem ofNat_real (n : Nat) : (Scalar.ofNat n : ℝ) = n := rfl

@[simp] theorem zero_real : (Scalar.zero : ℝ) = 0 := Nat.cast_zero

@[simp] theorem one_real : (Scalar.one : ℝ) = 1 := Nat.cast_one

@[simp] theorem two_real : (Scalar.two : ℝ) = 2 := Nat.cast_ofNat

@[simp] theorem three_real : (Scalar.three : ℝ) = 3 := Nat.cast_ofNat

@[simp] theorem cube_real (value : ℝ) : cube value = value ^ 3 := rfl

@[simp] theorem wholePart?_real (value : ℝ) : wholePart? value = some ⌊value⌋₊ := rfl

@[simp] theorem le_real {left right : ℝ} : le left right = true ↔ left ≤ right := by
  simp [le]

@[simp] theorem lt_real {left right : ℝ} : lt left right = true ↔ left < right := by
  simp [lt]

theorem clamp_real {least greatest : ℝ} (ordered : least ≤ greatest) (value : ℝ) :
    clamp least greatest value = max least (min greatest value) := by
  simp only [clamp, lt_real]
  split
  · next below => rw [min_eq_right (below.le.trans ordered), max_eq_left below.le]
  · next notBelow =>
      split
      · next above => rw [min_eq_left above.le, max_eq_right ordered]
      · next notAbove =>
          rw [min_eq_right (not_lt.mp notAbove), max_eq_right (not_lt.mp notBelow)]

/-- Equal steps, the last one included. -/
theorem stepPoint_real (last : ℝ) {count index : Nat} (positive : 0 < count) :
    stepPoint last count index = index * (last / count) := by
  unfold stepPoint
  split
  · next atEnd =>
      subst atEnd
      have nonzero : (index : ℝ) ≠ 0 := Nat.cast_ne_zero.mpr (by omega)
      exact (mul_div_cancel₀ last nonzero).symm
  · rfl

end Scalar

namespace Vec3

theorem norm_real (v : Vec3 ℝ) : v.norm = √(v.x * v.x + v.y * v.y + v.z * v.z) := by
  simp only [norm, dot, Scalar.zero_real, zero_add]
  rfl

theorem norm_nonneg (v : Vec3 ℝ) : 0 ≤ v.norm := by
  rw [norm_real]
  exact Real.sqrt_nonneg _

theorem eq_of_norm_sub_eq_zero {v w : Vec3 ℝ} (same : (v - w).norm = 0) : v = w := by
  obtain ⟨vx, vy, vz⟩ := v
  obtain ⟨wx, wy, wz⟩ := w
  have x := mul_self_nonneg (vx - wx)
  have y := mul_self_nonneg (vy - wy)
  have z := mul_self_nonneg (vz - wz)
  have squares : (vx - wx) * (vx - wx) + (vy - wy) * (vy - wy) + (vz - wz) * (vz - wz) = 0 := by
    apply (Real.sqrt_eq_zero (by linarith)).mp
    rw [← same, norm_real]
    rfl
  have x_eq : vx - wx = 0 := mul_self_eq_zero.mp (by linarith)
  have y_eq : vy - wy = 0 := mul_self_eq_zero.mp (by linarith)
  have z_eq : vz - wz = 0 := mul_self_eq_zero.mp (by linarith)
  rw [sub_eq_zero.mp x_eq, sub_eq_zero.mp y_eq, sub_eq_zero.mp z_eq]

end Vec3

end GrowthGrammar
