import Mathlib
import GrowthGrammar.Proofs.Curve.ArcLength
import GrowthGrammar.Proofs.Curve.Directions
import GrowthGrammar.Proofs.Geometry.Products

/-!
# Frames along a path

A frame is carried from one tangent to the next by the rotation that takes the one tangent to the
other, about the axis across both. So its normal stays across the tangent, and changes only where
the path turns.
-/

namespace GrowthGrammar

/-! ## Lengths -/

namespace Vec3

variable {v w : Vec3 ℝ}

theorem norm_mul_norm (v : Vec3 ℝ) : v.norm * v.norm = v.dot v := by
  rw [norm_real, dot_eq]
  apply Real.mul_self_sqrt
  exact add_nonneg (add_nonneg (mul_self_nonneg _) (mul_self_nonneg _)) (mul_self_nonneg _)

theorem norm_eq_one_iff : v.norm = 1 ↔ v.dot v = 1 := by
  rw [← norm_mul_norm, mul_self_eq_one_iff, or_iff_left]
  linarith [v.norm_nonneg]

theorem norm_zero : (zero : Vec3 ℝ).norm = 0 := by
  simp [norm_real, zero]

theorem dot_scale (v w : Vec3 ℝ) (factor : ℝ) : v.dot (w.scale factor) = factor * v.dot w := by
  simp only [dot_eq, scale]
  ring

end Vec3

namespace Curve

variable {v w : Vec3 ℝ}

theorem hasDirection_real_iff : hasDirection v = true ↔ 1 / 10 ^ 12 < v.norm := by
  norm_num [hasDirection, shortest]

theorem norm_pos_of_hasDirection (directed : hasDirection v = true) : 0 < v.norm :=
  lt_trans (by norm_num) (hasDirection_real_iff.mp directed)

theorem unit_dot (v w : Vec3 ℝ) : (unit v).dot w = v.dot w / v.norm := by
  simp only [unit, Vec3.divide, Vec3.dot_eq]
  ring

theorem norm_unit (nonzero : v.norm ≠ 0) : (unit v).norm = 1 := by
  rw [Vec3.norm_eq_one_iff, unit_dot, Vec3.dot_comm, unit_dot, ← Vec3.norm_mul_norm]
  field_simp

end Curve

namespace PathFrame

/-! ## Turning about an axis -/

section

variable [ExactScalar α]

/-- Turning keeps scalar products. -/
theorem turn_dot_turn {axis : Vec3 α} (unitAxis : axis.dot axis = 1) (v w : Vec3 α) (angle : α) :
    (turn v axis angle).dot (turn w axis angle) = v.dot w := by
  have circle := ExactScalar.circle angle
  simp only [Vec3.dot_eq] at unitAxis
  simp only [turn, Vec3.dot_eq, Vec3.cross, Scalar.one_exact]
  generalize Scalar.cos angle = c at *
  generalize Scalar.sin angle = s at *
  linear_combination
    (s * s * (v.x * w.x + v.y * w.y + v.z * w.z) + (1 - c) * (1 - c) *
      (axis.x * v.x + axis.y * v.y + axis.z * v.z) *
      (axis.x * w.x + axis.y * w.y + axis.z * w.z)) * unitAxis +
    (v.x * w.x + v.y * w.y + v.z * w.z -
      (axis.x * v.x + axis.y * v.y + axis.z * v.z) *
      (axis.x * w.x + axis.y * w.y + axis.z * w.z)) * circle

theorem turn_of_perpendicular {v axis : Vec3 α} (perpendicular : axis.dot v = 0) (angle : α) :
    turn v axis angle = v.scale (Scalar.cos angle) + (axis.cross v).scale (Scalar.sin angle) := by
  rw [turn, perpendicular]
  ext
  all_goals
    simp only [Vec3.add_x, Vec3.add_y, Vec3.add_z, Vec3.scale]
    ring

end

/-! ## From one tangent to the next -/

section

variable {tangent next : Vec3 ℝ} (unitTangent : tangent.norm = 1) (unitNext : next.norm = 1)

include unitTangent unitNext

theorem cross_dot_cross_of_unit :
    (tangent.cross next).dot (tangent.cross next) = 1 - tangent.dot next ^ 2 := by
  rw [Vec3.cross_dot_cross, Vec3.norm_eq_one_iff.mp unitTangent, Vec3.norm_eq_one_iff.mp unitNext]
  ring

theorem abs_dot_le_one : |tangent.dot next| ≤ 1 := by
  have sine := cross_dot_cross_of_unit unitTangent unitNext
  have nonneg := mul_self_nonneg (tangent.cross next).norm
  rw [Vec3.norm_mul_norm] at nonneg
  apply (sq_le_one_iff_abs_le_one _).mp
  linarith

theorem clamp_dot :
    Scalar.clamp (-Scalar.one) Scalar.one (tangent.dot next) = tangent.dot next := by
  rcases abs_le.mp (abs_dot_le_one unitTangent unitNext) with ⟨least, most⟩
  rw [Scalar.one_real, Scalar.clamp_real (by norm_num), min_eq_right most, max_eq_right least]

/-- The angle between the tangents. -/
theorem cos_arccos_dot :
    Scalar.cos (Scalar.arccos (tangent.dot next)) = tangent.dot next := by
  rcases abs_le.mp (abs_dot_le_one unitTangent unitNext) with ⟨least, most⟩
  exact Real.cos_arccos least most

theorem sin_arccos_dot :
    Scalar.sin (Scalar.arccos (tangent.dot next)) = (tangent.cross next).norm := by
  refine (Real.sin_arccos _).trans ?_
  rw [← cross_dot_cross_of_unit unitTangent unitNext, ← Vec3.norm_mul_norm,
    Real.sqrt_mul_self (Vec3.norm_nonneg _)]

/-- The rotation about the axis between two tangents by their angle takes the one to the other. -/
theorem turn_tangent (apart : (tangent.cross next).norm ≠ 0) :
    turn tangent (Curve.unit (tangent.cross next)) (Scalar.arccos (tangent.dot next)) = next := by
  have along : (Curve.unit (tangent.cross next)).dot tangent = 0 := by
    rw [Curve.unit_dot, Vec3.cross_dot_self_left, zero_div]
  have across : ((Curve.unit (tangent.cross next)).cross tangent).scale (tangent.cross next).norm =
      (tangent.cross next).cross tangent := by
    generalize tangent.cross next = axis at apart
    ext
    all_goals
      simp only [Curve.unit, Vec3.divide, Vec3.cross, Vec3.scale]
      field_simp
  rw [turn_of_perpendicular along, cos_arccos_dot unitTangent unitNext,
    sin_arccos_dot unitTangent unitNext, across, Vec3.cross_cross_self,
    Vec3.norm_eq_one_iff.mp unitTangent]
  ext
  all_goals
    simp only [Vec3.add_x, Vec3.add_y, Vec3.add_z, Vec3.sub_x, Vec3.sub_y, Vec3.sub_z, Vec3.scale]
    ring

end

/-- Tangents with no axis between them are multiples of each other. -/
theorem eq_scale_of_cross_eq_zero {tangent next : Vec3 ℝ} (unitTangent : tangent.norm = 1)
    (parallel : tangent.cross next = .zero) :
    next = tangent.scale (tangent.dot next) := by
  have none : (tangent.cross next).cross tangent = .zero := by
    rw [parallel]
    ext <;> simp [Vec3.cross, Vec3.zero]
  rw [Vec3.cross_cross_self, Vec3.norm_eq_one_iff.mp unitTangent] at none
  simp only [Vec3.ext_iff, Vec3.sub_x, Vec3.sub_y, Vec3.sub_z, Vec3.scale, Vec3.zero,
    Scalar.zero_real, one_mul, sub_eq_zero] at none
  exact Vec3.ext none.1 none.2.1 none.2.2

/-! ## The first frame -/

/-- The least of three coordinates on the unit sphere leaves something to the others. -/
theorem others_pos {least second third : ℝ} (unit : least ^ 2 + second ^ 2 + third ^ 2 = 1)
    (belowSecond : |least| ≤ |second|) (belowThird : |least| ≤ |third|) :
    0 < second ^ 2 + third ^ 2 := by
  have second_sq := sq_le_sq.mpr belowSecond
  have third_sq := sq_le_sq.mpr belowThird
  linarith

theorem magnitude_real (value : ℝ) : Scalar.magnitude value = |value| := by
  simp only [Scalar.magnitude, Scalar.lt_real, Scalar.zero_real]
  split
  · next negative => exact (abs_of_neg negative).symm
  · next nonneg => exact (abs_of_nonneg (not_lt.mp nonneg)).symm

/-- Along an axis of the world the vector extends no more than along the others. -/
inductive IsLeastAxis (v : Vec3 ℝ) : Vec3 ℝ → Prop
  | x (belowY : |v.x| ≤ |v.y|) (belowZ : |v.x| ≤ |v.z|) : IsLeastAxis v ⟨1, 0, 0⟩
  | y (belowX : |v.y| ≤ |v.x|) (belowZ : |v.y| ≤ |v.z|) : IsLeastAxis v ⟨0, 1, 0⟩
  | z (belowX : |v.z| ≤ |v.x|) (belowY : |v.z| ≤ |v.y|) : IsLeastAxis v ⟨0, 0, 1⟩

theorem isLeastAxis_leastAxis (v : Vec3 ℝ) : IsLeastAxis v (leastAxis v) := by
  simp only [leastAxis, Vec3.map, magnitude_real, Bool.and_eq_true, Scalar.le_real,
    Scalar.zero_real, Scalar.one_real]
  split
  · next first => exact .x first.1 first.2
  · next notFirst =>
      split
      · next second =>
          have belowX : |v.y| ≤ |v.x| := by
            by_contra above
            exact notFirst ⟨(not_le.mp above).le, (not_le.mp above).le.trans second⟩
          exact .y belowX second
      · next notSecond =>
          have belowY := (not_le.mp notSecond).le
          have belowX : |v.z| ≤ |v.x| := by
            by_contra above
            exact notFirst ⟨(not_le.mp above).le.trans belowY, (not_le.mp above).le⟩
          exact .z belowX belowY

/-- A direction is not parallel to the axis of the world along which it extends least. -/
theorem norm_cross_leastAxis {tangent : Vec3 ℝ} (unitTangent : tangent.norm = 1) :
    (tangent.cross (leastAxis tangent)).norm ≠ 0 := by
  have unit := Vec3.norm_eq_one_iff.mp unitTangent
  rw [Vec3.dot_eq, ← sq, ← sq, ← sq] at unit
  have least := isLeastAxis_leastAxis tangent
  generalize leastAxis tangent = axis at least ⊢
  have positive : 0 < (tangent.cross axis).dot (tangent.cross axis) := by
    rw [Vec3.dot_eq]
    cases least with
    | x belowY belowZ =>
        have others := others_pos unit belowY belowZ
        simp only [Vec3.cross]
        linarith
    | y belowX belowZ =>
        have others := others_pos (by linarith) belowX belowZ
        simp only [Vec3.cross]
        linarith
    | z belowX belowY =>
        have others := others_pos (by linarith) belowX belowY
        simp only [Vec3.cross]
        linarith
  rw [← Vec3.norm_mul_norm] at positive
  exact fun zero => by simp [zero] at positive

/-! ## Frames across tangents -/

/-- Both axes lie across the tangent, perpendicular to each other; the normal has length one, and
so has the binormal if the tangent has it. -/
structure IsAcross (tangent : Vec3 ℝ) (frame : PathFrame ℝ) : Prop where
  tangent_eq : frame.tangent = tangent
  unitNormal : frame.normal.norm = 1
  perpendicular : frame.normal.dot tangent = 0
  binormal_eq : frame.binormal = tangent.cross frame.normal

/-- Two tangents have no axis between them, or one with a direction. -/
def Turns (tangent next : Vec3 ℝ) : Prop :=
  tangent.cross next = .zero ∨ 1 / 10 ^ 12 < (tangent.cross next).norm

theorem isAcross_first {tangent : Vec3 ℝ} (unitTangent : tangent.norm = 1) :
    IsAcross tangent (first tangent) where
  tangent_eq := rfl
  unitNormal := by
    have unitAcross := Curve.norm_unit (norm_cross_leastAxis unitTangent)
    have perpendicular : tangent.dot (Curve.unit (tangent.cross (leastAxis tangent))) = 0 := by
      rw [Vec3.dot_comm, Curve.unit_dot, Vec3.cross_dot_self_left, zero_div]
    rw [Vec3.norm_eq_one_iff, first, Vec3.cross_dot_cross, perpendicular,
      Vec3.norm_eq_one_iff.mp unitTangent, Vec3.norm_eq_one_iff.mp unitAcross]
    norm_num
  perpendicular := Vec3.cross_dot_self_left _ _
  binormal_eq := rfl

section

variable {tangent next : Vec3 ℝ} {frame : PathFrame ℝ}

theorem carry_of_cross_eq_zero (parallel : frame.tangent.cross next = .zero) :
    frame.carry next = frame.normal := by
  have short : Curve.hasDirection (frame.tangent.cross next) = false := by
    rw [Bool.eq_false_iff, ne_eq, Curve.hasDirection_real_iff, parallel, Vec3.norm_zero]
    norm_num
  rw [carry, short]
  rfl

theorem carry_of_apart (unitTangent : frame.tangent.norm = 1) (unitNext : next.norm = 1)
    (apart : 1 / 10 ^ 12 < (frame.tangent.cross next).norm) :
    frame.carry next = turn frame.normal (Curve.unit (frame.tangent.cross next))
      (Scalar.arccos (frame.tangent.dot next)) := by
  simp only [carry, Curve.hasDirection_real_iff.mpr apart, if_true,
    clamp_dot unitTangent unitNext]

/-- The step along the path keeps the axes across it. -/
theorem isAcross_next (across : IsAcross tangent frame) (unitTangent : tangent.norm = 1)
    (unitNext : next.norm = 1) (turns : Turns tangent next) : IsAcross next (frame.next next) := by
  rcases across with ⟨rfl, unitNormal, perpendicular, -⟩
  rcases turns with parallel | apart
  · have carried : (frame.next next).normal = frame.normal := carry_of_cross_eq_zero parallel
    refine ⟨rfl, carried ▸ unitNormal, ?_, rfl⟩
    rw [carried, eq_scale_of_cross_eq_zero unitTangent parallel, Vec3.dot_scale, perpendicular,
      mul_zero]
  · -- The rotation takes the tangent along, so that the normal stays perpendicular to it.
    have nonzero : (frame.tangent.cross next).norm ≠ 0 := (lt_trans (by norm_num) apart).ne'
    have unitAxis := Vec3.norm_eq_one_iff.mp (Curve.norm_unit nonzero)
    have carried : (frame.next next).normal = _ := carry_of_apart unitTangent unitNext apart
    refine ⟨rfl, ?_, ?_, rfl⟩
    · rw [carried, Vec3.norm_eq_one_iff, turn_dot_turn unitAxis]
      exact Vec3.norm_eq_one_iff.mp unitNormal
    · let axis := Curve.unit (frame.tangent.cross next)
      let angle := Scalar.arccos (frame.tangent.dot next)
      calc (frame.next next).normal.dot next
        _ = (turn frame.normal axis angle).dot (turn frame.tangent axis angle) := by
          rw [carried, turn_tangent unitTangent unitNext nonzero]
        _ = frame.normal.dot frame.tangent := turn_dot_turn unitAxis _ _ _
        _ = 0 := perpendicular

theorem cross_eq_zero_of_scale {factor : ℝ} (parallel : next = tangent.scale factor) :
    tangent.cross next = .zero := by
  rw [parallel]
  ext
  all_goals
    simp only [Vec3.cross, Vec3.scale, Vec3.zero, Scalar.zero_real]
    ring

end

/-! ## Frames along a path -/

/-- Tangents of a path that turns visibly where it does not go straight on or back. -/
structure IsPath (tangents : List (Vec3 ℝ)) : Prop where
  units : ∀ tangent ∈ tangents, tangent.norm = 1
  turns : tangents.IsChain Turns

/-- Frames across the tangents of a path, with no twist where these are parallel or opposite. -/
structure FollowsPath (tangents : List (Vec3 ℝ)) (frames : List (PathFrame ℝ)) : Prop where
  across : List.Forall₂ IsAcross tangents frames
  steady : frames.IsChain fun frame next =>
    (∃ factor, next.tangent = frame.tangent.scale factor) → next.normal = frame.normal

theorem exists_listFrom (frame : PathFrame ℝ) (tangents : List (Vec3 ℝ)) :
    ∃ rest, listFrom frame tangents = frame :: rest := by
  cases tangents with
  | nil => exact ⟨[], rfl⟩
  | cons next tangents => exact ⟨listFrom (frame.next next) tangents, rfl⟩

theorem followsPath_listFrom {tangent : Vec3 ℝ} {tangents : List (Vec3 ℝ)}
    (path : IsPath (tangent :: tangents)) {frame : PathFrame ℝ} (across : IsAcross tangent frame) :
    FollowsPath (tangent :: tangents) (listFrom frame tangents) := by
  induction tangents generalizing tangent frame with
  | nil => exact ⟨.cons across .nil, List.isChain_singleton _⟩
  | cons next tangents induction =>
      rcases List.forall_mem_cons.mp path.units with ⟨unitTangent, units⟩
      rcases List.isChain_cons_cons.mp path.turns with ⟨turns, others⟩
      have step := isAcross_next across unitTangent (units next List.mem_cons_self) turns
      have behind := induction ⟨units, others⟩ step
      refine ⟨.cons across behind.across, ?_⟩
      rcases exists_listFrom (frame.next next) tangents with ⟨rest, frames_eq⟩
      have steady := behind.steady
      rw [frames_eq] at steady
      rw [listFrom, frames_eq]
      refine .cons_cons ?_ steady
      rintro ⟨factor, parallel⟩
      exact carry_of_cross_eq_zero (cross_eq_zero_of_scale parallel)

theorem followsPath_ofTangents {tangents : List (Vec3 ℝ)} (path : IsPath tangents) :
    FollowsPath tangents (ofTangents tangents) := by
  cases tangents with
  | nil => exact ⟨.nil, .nil⟩
  | cons tangent tangents =>
      exact followsPath_listFrom path (isAcross_first (path.units tangent List.mem_cons_self))

end PathFrame

end GrowthGrammar
