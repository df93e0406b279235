import Mathlib
import GrowthGrammar.Proofs.Curve.BrokenLine
import GrowthGrammar.Proofs.Curve.Smooth

/-!
# Parameters by length

The lengths of a curve rise from zero, and parameters rise with them. In exact numbers the parameter
at a fraction of the length is a place where the table has this fraction of the length, also when
some chords have no length.
-/

namespace GrowthGrammar

namespace Curve

/-! ## Chords -/

theorem length_lengthsAlong [Scalar α] (travelled : α) (points : List (Vec3 α)) :
    (lengthsAlong travelled points).length = points.length := by
  fun_induction lengthsAlong travelled points with
  | case1 => rfl
  | case2 => rfl
  | case3 travelled point next rest induction => exact congrArg Nat.succ induction

theorem head?_lengthsAlong [Scalar α] (travelled : α) (point : Vec3 α) (rest : List (Vec3 α)) :
    (lengthsAlong travelled (point :: rest)).head? = some travelled := by
  cases rest <;> rfl

section

variable {travelled : ℝ} {points : List (Vec3 ℝ)}

theorem le_of_mem_lengthsAlong {length : ℝ} (member : length ∈ lengthsAlong travelled points) :
    travelled ≤ length := by
  fun_induction lengthsAlong travelled points with
  | case1 => cases member
  | case2 => rw [List.mem_singleton.mp member]
  | case3 travelled point next rest induction =>
      rcases List.mem_cons.mp member with rfl | member
      · exact le_refl length
      · have chord := (next - point).norm_nonneg
        have behind := induction member
        linarith

theorem pairwise_lengthsAlong (travelled : ℝ) (points : List (Vec3 ℝ)) :
    (lengthsAlong travelled points).Pairwise (· ≤ ·) := by
  fun_induction lengthsAlong travelled points with
  | case1 => exact List.Pairwise.nil
  | case2 => exact List.pairwise_singleton _ _
  | case3 travelled point next rest induction =>
      refine List.pairwise_cons.mpr ⟨?_, induction⟩
      intro length member
      have chord := (next - point).norm_nonneg
      have behind := le_of_mem_lengthsAlong member
      linarith

/-- As long as the length does not change the way stays at its first point. -/
theorem getElem?_of_lengthsAlong {place : Nat}
    (same : (lengthsAlong travelled points)[place]? = some travelled) :
    points[place]? = points[0]? := by
  fun_induction lengthsAlong travelled points generalizing place with
  | case1 => cases same
  | case2 =>
      cases place with
      | zero => rfl
      | succ place => cases same
  | case3 travelled point next rest induction =>
      cases place with
      | zero => rfl
      | succ place =>
          rw [List.getElem?_cons_succ] at same
          have reached := le_of_mem_lengthsAlong (List.mem_of_getElem? same)
          have chord := (next - point).norm_nonneg
          have noChord : (next - point).norm = 0 := by linarith
          have here : travelled + (next - point).norm = travelled := by linarith
          rw [here] at induction same
          rw [List.getElem?_cons_succ, induction same, Vec3.eq_of_norm_sub_eq_zero noChord]
          rfl

end

/-! ## The table of lengths -/

/-- Lengths of a way, from its start on. -/
structure IsMeasured (curve : Curve ℝ) : Prop where
  atStart : curve.lengths.head? = some 0
  ascending : curve.lengths.Pairwise (· ≤ ·)

section

variable {curve : Curve ℝ}

theorem length_table (curve : Curve ℝ) : curve.table.length = curve.lengths.length := by
  simp [table]

/-- The parameters of the entries are at equal steps. -/
theorem getElem_table {place : Nat} (twoLengths : 2 ≤ curve.lengths.length)
    (inside : place < curve.lengths.length) (within : place < curve.table.length) :
    curve.table[place] =
      (curve.lengths[place], (place / (curve.lengths.length - 1 : Nat) : ℝ)) := by
  simp only [table, List.getElem_zip, List.getElem_map, List.getElem_range, Scalar.one_real]
  rw [Scalar.stepPoint_real 1 (by omega), mul_one_div]

theorem IsMeasured.twoLengths (measured : curve.IsMeasured) (positive : 0 < curve.length) :
    2 ≤ curve.lengths.length := by
  obtain ⟨atStart, _⟩ := measured
  rw [length] at positive
  generalize curve.lengths = lengths at atStart positive
  match lengths, atStart, positive with
  | [only], atStart, positive =>
      cases atStart
      exact absurd positive (lt_irrefl 0)
  | _ :: _ :: _, _, _ => exact Nat.le_add_left 2 _

theorem IsMeasured.pairwise_table (measured : curve.IsMeasured) (positive : 0 < curve.length) :
    curve.table.Pairwise fun first second => first ≤ second ∧ first.2 < second.2 := by
  have twoLengths := measured.twoLengths positive
  have steps : (0 : ℝ) < (curve.lengths.length - 1 : Nat) := Nat.cast_pos.mpr (by omega)
  rw [List.pairwise_iff_getElem]
  intro first second firstWithin secondWithin ordered
  have inside := secondWithin
  rw [length_table] at inside
  have before : first < curve.lengths.length := by omega
  rw [getElem_table twoLengths inside, getElem_table twoLengths before]
  have lengths := List.pairwise_iff_getElem.mp measured.ascending first second before inside ordered
  have parameters : (first / (curve.lengths.length - 1 : Nat) : ℝ) <
      second / (curve.lengths.length - 1 : Nat) := by gcongr
  exact ⟨⟨lengths, parameters.le⟩, parameters⟩

theorem IsMeasured.rising (measured : curve.IsMeasured) (positive : 0 < curve.length) :
    curve.table.Pairwise (· ≤ ·) :=
  (measured.pairwise_table positive).imp And.left

/-- The first entry is the start of the curve, the last one its end. -/
theorem IsMeasured.exists_table (measured : curve.IsMeasured) (positive : 0 < curve.length) :
    ∃ inner, curve.table = (0, 0) :: inner ++ [(curve.length, 1)] := by
  have twoLengths := measured.twoLengths positive
  have length_eq := length_table curve
  have steps : ((curve.lengths.length - 1 : Nat) : ℝ) ≠ 0 := Nat.cast_ne_zero.mpr (by omega)
  have first : curve.table[0]? = some (0, 0) := by
    have atStart := measured.atStart
    rw [List.head?_eq_getElem?, List.getElem?_eq_getElem (by omega)] at atStart
    rw [List.getElem?_eq_getElem (by omega), getElem_table twoLengths (by omega),
      Option.some.inj atStart, Nat.cast_zero, zero_div]
  have last : curve.table.getLast? = some (curve.length, 1) := by
    rw [List.getLast?_eq_getElem?, length_eq, List.getElem?_eq_getElem (by omega),
      getElem_table twoLengths (by omega), div_self steps, length, List.getLast?_eq_getElem?,
      List.getElem?_eq_getElem (by omega), Option.getD_some]
  obtain ⟨before, table_eq⟩ := List.getLast?_eq_some_iff.mp last
  cases before with
  | nil =>
      rw [table_eq, List.nil_append, List.length_singleton] at length_eq
      omega
  | cons start inner =>
      rw [table_eq] at first
      cases first
      exact ⟨inner, table_eq⟩

/-! ## Fractions of the length -/

theorem parameterAt_eq_self (noLength : curve.length ≤ 0) (fraction : ℝ) :
    curve.parameterAt fraction = fraction := by
  rw [parameterAt, if_pos (by simpa using noLength)]

theorem parameterAt_eq (positive : 0 < curve.length) (fraction : ℝ) :
    curve.parameterAt fraction = interpolate curve.table (fraction * curve.length) := by
  rw [parameterAt, if_neg (by simpa using positive)]

/-- Parameters and lengths that belong together. -/
structure FollowsLengths (curve : Curve ℝ) : Prop where
  within : Set.MapsTo curve.parameterAt (Set.Icc 0 1) (Set.Icc 0 1)
  ordered : MonotoneOn curve.parameterAt (Set.Icc 0 1)
  /-- The line through the entries of the table has the fraction of the length at the parameter. -/
  onLine : 0 < curve.length → ∀ fraction ∈ Set.Icc (0 : ℝ) 1,
    OnBrokenLine (fraction * curve.length, curve.parameterAt fraction) curve.table
  /-- Looking the parameter up among the parameters of the table finds the way back. -/
  inverts : 0 < curve.length → ∀ fraction ∈ Set.Icc (0 : ℝ) 1,
    interpolate (curve.table.map Prod.swap) (curve.parameterAt fraction) = fraction * curve.length
  unmeasured : curve.length = 0 → ∀ fraction, curve.parameterAt fraction = fraction

namespace IsMeasured

variable (measured : curve.IsMeasured)

include measured

theorem onBrokenLine (positive : 0 < curve.length) {fraction : ℝ} (part : fraction ∈ Set.Icc 0 1) :
    OnBrokenLine (fraction * curve.length, curve.parameterAt fraction) curve.table := by
  obtain ⟨inner, table_eq⟩ := measured.exists_table positive
  have rising := measured.rising positive
  have reached : 0 ≤ fraction * curve.length := mul_nonneg part.1 positive.le
  rw [parameterAt_eq positive]
  rw [table_eq, List.cons_append] at rising ⊢
  rw [interpolate_cons_of_le reached]
  apply onBrokenLine_valueFrom rising reached
  exact ⟨(curve.length, 1), by simp, mul_le_of_le_one_left positive.le part.2⟩

theorem parameterAt_mem (positive : 0 < curve.length) {fraction : ℝ}
    (part : fraction ∈ Set.Icc 0 1) : curve.parameterAt fraction ∈ Set.Icc 0 1 := by
  obtain ⟨inner, table_eq⟩ := measured.exists_table positive
  have rising := measured.rising positive
  have onLine := measured.onBrokenLine positive part
  rw [table_eq] at rising onLine
  exact ⟨(onLine.ge_head rising).2, (onLine.le_getLast rising).2⟩

theorem interpolate_parameterAt (positive : 0 < curve.length) {fraction : ℝ}
    (part : fraction ∈ Set.Icc 0 1) :
    interpolate (curve.table.map Prod.swap) (curve.parameterAt fraction) =
      fraction * curve.length := by
  obtain ⟨inner, table_eq⟩ := measured.exists_table positive
  have reached := (measured.parameterAt_mem positive part).1
  have onLine := (measured.onBrokenLine positive part).swap
  have increasing : (curve.table.map Prod.swap).Pairwise fun first second => first.1 < second.1 :=
    List.pairwise_map.mpr ((measured.pairwise_table positive).imp And.right)
  rw [table_eq, List.cons_append, List.map_cons] at onLine increasing ⊢
  rw [interpolate_cons_of_le reached]
  exact (valueFrom_of_onBrokenLine increasing onLine).2

theorem followsLengths : curve.FollowsLengths := by
  rcases le_or_gt curve.length 0 with noLength | positive
  · have same : curve.parameterAt = id := funext (parameterAt_eq_self noLength)
    exact
      { within := same ▸ Set.mapsTo_id _
        ordered := same ▸ monotoneOn_id
        onLine := fun positive => absurd positive (not_lt.mpr noLength)
        inverts := fun positive => absurd positive (not_lt.mpr noLength)
        unmeasured := fun _ => parameterAt_eq_self noLength }
  · exact
      { within := fun _ part => measured.parameterAt_mem positive part
        ordered := by
          intro fraction part other otherPart ordered
          rcases ordered.lt_or_eq with ahead | rfl
          · have rising := measured.rising positive
            exact (measured.onBrokenLine positive part).value_le
              (measured.onBrokenLine positive otherPart) rising
              (mul_lt_mul_of_pos_right ahead positive)
          · exact le_refl _
        onLine := fun _ _ part => measured.onBrokenLine positive part
        inverts := fun _ _ part => measured.interpolate_parameterAt positive part
        unmeasured := fun noLength => absurd noLength positive.ne' }

/-- Behind a last chord without length there is the end as well. -/
theorem parameterAt_one : curve.parameterAt 1 = 1 := by
  rcases le_or_gt curve.length 0 with noLength | positive
  · exact parameterAt_eq_self noLength 1
  obtain ⟨inner, table_eq⟩ := measured.exists_table positive
  have rising := measured.rising positive
  rw [parameterAt_eq positive, one_mul]
  rw [table_eq, List.cons_append] at rising ⊢
  rw [interpolate_cons_of_le positive.le, valueFrom_of_forall_le]
  · simp
  · intro entry member
    have bound : entry ≤ (curve.length, 1) := by
      simpa using rising.rel_getLast (List.mem_cons_of_mem _ member)
    exact bound.1

/-- Chords without length at the start are passed over. -/
theorem exists_parameterAt_zero :
    ∃ place : Nat, curve.lengths[place]? = some 0 ∧
      curve.parameterAt 0 = place / (curve.lengths.length - 1 : Nat) := by
  rcases le_or_gt curve.length 0 with noLength | positive
  · refine ⟨0, List.head?_eq_getElem? ▸ measured.atStart, ?_⟩
    rw [parameterAt_eq_self noLength, Nat.cast_zero, zero_div]
  obtain ⟨inner, table_eq⟩ := measured.exists_table positive
  have rising := measured.rising positive
  have atStart : curve.parameterAt 0 = valueFrom (0, 0) (inner ++ [(curve.length, 1)]) 0 := by
    rw [parameterAt_eq positive, zero_mul, table_eq, List.cons_append,
      interpolate_cons_of_le (le_refl 0)]
  rw [table_eq, List.cons_append] at rising
  -- The entry is the last one with the length zero, so its parameter is not zero in general.
  obtain ⟨entry, member, entryLength, value⟩ := exists_valueFrom_eq rising
  rw [← List.cons_append, ← table_eq] at member
  obtain ⟨place, within, entry_eq⟩ := List.getElem_of_mem member
  have inside := within
  rw [length_table] at inside
  rw [getElem_table (measured.twoLengths positive) inside] at entry_eq
  subst entry_eq
  exact ⟨place, List.getElem?_eq_some_iff.mpr ⟨inside, entryLength⟩, atStart.trans value⟩

end IsMeasured

end

/-! ## Curves through points -/

section

variable (spline : Spline ℝ)

theorem exists_samples :
    ∃ path : ℝ → Vec3 ℝ, (∀ t, spline.point? t = some (path t)) ∧
      samples spline = (List.range (chords + 1)).map fun place : Nat => path (place / chords) := by
  choose path found using spline.exists_point?
  refine ⟨path, found, ?_⟩
  have step (place : Nat) : Scalar.stepPoint (Scalar.one : ℝ) chords place = place / chords := by
    rw [Scalar.one_real, Scalar.stepPoint_real 1 (by decide), mul_one_div]
  simp only [samples, found, step]
  rw [List.filterMap_eq_map']

theorem getElem?_samples {place : Nat} (inside : place ≤ chords) :
    (samples spline)[place]? = spline.point? (place / chords) := by
  obtain ⟨path, found, samples_eq⟩ := exists_samples spline
  rw [samples_eq, found, List.getElem?_map, List.getElem?_range (by omega), Option.map_some]

theorem length_lengths : (ofSpline spline).lengths.length = chords + 1 := by
  obtain ⟨path, _, samples_eq⟩ := exists_samples spline
  rw [ofSpline, length_lengthsAlong, samples_eq, List.length_map, List.length_range]

theorem isMeasured_ofSpline : (ofSpline spline).IsMeasured where
  atStart := by
    obtain ⟨path, _, samples_eq⟩ := exists_samples spline
    rw [ofSpline, samples_eq, List.range_succ_eq_map, List.map_cons, head?_lengthsAlong,
      Scalar.zero_real]
  ascending := pairwise_lengthsAlong _ _

/-- Samples in front of which there are no chords with a length are all the first point. -/
theorem point?_parameterAt_zero :
    spline.point? ((ofSpline spline).parameterAt 0) = spline.points[0]? := by
  obtain ⟨place, atStart, parameter_eq⟩ := (isMeasured_ofSpline spline).exists_parameterAt_zero
  have inside : place < chords + 1 := by
    rw [← length_lengths spline]
    exact (List.getElem?_eq_some_iff.mp atStart).1
  have same : (samples spline)[place]? = (samples spline)[0]? := by
    rw [← Scalar.zero_real] at atStart
    exact getElem?_of_lengthsAlong atStart
  rw [getElem?_samples spline (by omega), getElem?_samples spline (Nat.zero_le chords),
    Nat.cast_zero, zero_div] at same
  rw [parameter_eq, length_lengths, Nat.add_sub_cancel, same, spline.point?_zero]

theorem point?_parameterAt_one :
    spline.point? ((ofSpline spline).parameterAt 1) = spline.points.back? := by
  rw [(isMeasured_ofSpline spline).parameterAt_one, spline.point?_one]

end

theorem pointAt_eq_ok [Scalar α] {curve : Curve α} {fraction : α} {point : Vec3 α}
    (found : curve.spline.point? (curve.parameterAt fraction) = some point) :
    curve.pointAt fraction = .ok point := by
  rw [pointAt, Curve.point, found]

/-- Parameters follow the lengths of every table that rises from zero. The curve through some points
has such a table, and from its start to its end it leads from the first point to the last. -/
theorem parameters_follow_lengths :
    (∀ curve : Curve ℝ, curve.IsMeasured → curve.FollowsLengths) ∧
      ∀ (points : Array (Vec3 ℝ)) (tension : ℝ) (_ : 2 ≤ points.size),
        ∃ curve, ofPoints points tension = .ok curve ∧
          curve.lengths.length = chords + 1 ∧ curve.IsMeasured ∧
          curve.pointAt 0 = .ok points[0] ∧ curve.pointAt 1 = .ok points[points.size - 1] := by
  refine ⟨fun _ measured => measured.followsLengths, ?_⟩
  intro points tension twoPoints
  let spline : Spline ℝ := ⟨points, tension, twoPoints⟩
  have made : ofPoints points tension = .ok (ofSpline spline) := by
    have madeSpline : Spline.ofPoints? points tension = some spline := dif_pos twoPoints
    rw [ofPoints, madeSpline]
  refine ⟨ofSpline spline, made, length_lengths spline, isMeasured_ofSpline spline, ?_, ?_⟩
  · apply pointAt_eq_ok
    exact (point?_parameterAt_zero spline).trans (Array.getElem?_eq_getElem _)
  · apply pointAt_eq_ok
    exact (point?_parameterAt_one spline).trans (Array.getElem?_eq_getElem _)

/-- On a curve with chords without length, at the start and on the way, and on one through two
points. -/
theorem parameters_follow_lengths_of_two :
    (∃ curve : Curve ℝ, curve.lengths = [0, 0, 1, 1, 3] ∧ curve.IsMeasured ∧
      curve.FollowsLengths ∧ curve.parameterAt 0 = 1 / 4 ∧ curve.parameterAt (1 / 2) = 13 / 16) ∧
    ∃ curve, ofPoints #[⟨0, 0, 0⟩, ⟨1, 2, 3⟩] (1 / 2 : ℝ) = .ok curve ∧
      curve.pointAt 0 = .ok ⟨0, 0, 0⟩ ∧ curve.pointAt 1 = .ok ⟨1, 2, 3⟩ := by
  have twoPoints : 2 ≤ (#[⟨0, 0, 0⟩, ⟨1, 2, 3⟩] : Array (Vec3 ℝ)).size := Nat.le_refl 2
  constructor
  · let curve : Curve ℝ := ⟨⟨_, 1 / 2, twoPoints⟩, [0, 0, 1, 1, 3]⟩
    have measured : curve.IsMeasured := ⟨rfl, by norm_num [curve]⟩
    have length_eq : curve.length = 3 := rfl
    have table_eq : curve.table = [(0, 0), (0, 1 / 4), (1, 2 / 4), (1, 3 / 4), (3, 1)] := by
      norm_num [curve, table, List.range_succ, Scalar.stepPoint_real]
    have positive : 0 < curve.length := by norm_num [length_eq]
    refine ⟨curve, rfl, measured, parameters_follow_lengths.1 curve measured, ?_, ?_⟩ <;>
      norm_num [parameterAt_eq positive, length_eq, table_eq, interpolate, valueFrom,
        valueBetween_real]
  · obtain ⟨curve, made, _, _, first, last⟩ := parameters_follow_lengths.2 _ (1 / 2) twoPoints
    exact ⟨curve, made, first, last⟩

end Curve

end GrowthGrammar
