import Mathlib
import GrowthGrammar.Curve.ArcLength
import GrowthGrammar.Proofs.Geometry.Exact

/-!
# Broken lines

The entries of a table, as points of the plane, are joined to a broken line. Interpolation finds the
point of the line at a place. The line of a table with places and values exchanged is the mirrored
line, so on a line that always rises interpolation of the exchanged table finds the place back.
-/

namespace GrowthGrammar

/-- A point of the straight line between two others. -/
def Between (lower upper point : ℝ × ℝ) : Prop :=
  ∃ portion, 0 ≤ portion ∧ portion ≤ 1 ∧
    point.1 = lower.1 + portion * (upper.1 - lower.1) ∧
    point.2 = lower.2 + portion * (upper.2 - lower.2)

/-- A point of the line through some points in their order. -/
inductive OnBrokenLine (point : ℝ × ℝ) : List (ℝ × ℝ) → Prop
  | here {lower upper : ℝ × ℝ} {rest : List (ℝ × ℝ)} :
      Between lower upper point → OnBrokenLine point (lower :: upper :: rest)
  | behind {lower : ℝ × ℝ} {rest : List (ℝ × ℝ)} :
      OnBrokenLine point rest → OnBrokenLine point (lower :: rest)

/-! ## The line itself -/

section

variable {lower upper point other : ℝ × ℝ} {table : List (ℝ × ℝ)}

theorem Between.swap (between : Between lower upper point) :
    Between lower.swap upper.swap point.swap := by
  obtain ⟨portion, least, most, place, value⟩ := between
  exact ⟨portion, least, most, value, place⟩

theorem OnBrokenLine.swap (onLine : OnBrokenLine point table) :
    OnBrokenLine point.swap (table.map Prod.swap) := by
  induction onLine with
  | here between => exact .here between.swap
  | behind _ induction => exact .behind induction

theorem Between.le (between : Between lower upper point) (ordered : lower ≤ upper) :
    lower ≤ point ∧ point ≤ upper := by
  obtain ⟨portion, least, most, place, value⟩ := between
  obtain ⟨places, values⟩ := ordered
  refine ⟨⟨?_, ?_⟩, ⟨?_, ?_⟩⟩ <;> nlinarith

theorem OnBrokenLine.exists_bounds (onLine : OnBrokenLine point table)
    (rising : table.Pairwise (· ≤ ·)) :
    ∃ lower ∈ table, ∃ upper ∈ table, lower ≤ point ∧ point ≤ upper := by
  induction onLine with
  | @here lower upper rest between =>
      have ordered := (List.pairwise_cons.mp rising).1 upper List.mem_cons_self
      exact ⟨lower, by simp, upper, by simp, between.le ordered⟩
  | behind _ induction =>
      obtain ⟨lower, lowerMember, upper, upperMember, bounds⟩ := induction rising.of_cons
      exact ⟨lower, List.mem_cons_of_mem _ lowerMember, upper, List.mem_cons_of_mem _ upperMember,
        bounds⟩

theorem OnBrokenLine.ge_head {rest : List (ℝ × ℝ)} (onLine : OnBrokenLine point (lower :: rest))
    (rising : (lower :: rest).Pairwise (· ≤ ·)) : lower ≤ point := by
  obtain ⟨first, member, _, _, bound, _⟩ := onLine.exists_bounds rising
  exact (rising.rel_head member).trans bound

theorem OnBrokenLine.le_getLast {rest : List (ℝ × ℝ)}
    (onLine : OnBrokenLine point (rest ++ [upper]))
    (rising : (rest ++ [upper]).Pairwise (· ≤ ·)) : point ≤ upper := by
  obtain ⟨_, _, last, member, _, bound⟩ := onLine.exists_bounds rising
  apply bound.trans
  simpa using rising.rel_getLast member

theorem Between.value_le (first : Between lower upper point) (second : Between lower upper other)
    (ordered : lower ≤ upper) (ahead : point.1 < other.1) : point.2 ≤ other.2 := by
  obtain ⟨portion, _, _, place, value⟩ := first
  obtain ⟨otherPortion, _, _, otherPlace, otherValue⟩ := second
  obtain ⟨places, values⟩ := ordered
  have portions : portion < otherPortion := by
    by_contra notAhead
    nlinarith
  nlinarith

/-- On a rising line what is farther is not lower. -/
theorem OnBrokenLine.value_le (first : OnBrokenLine point table) (second : OnBrokenLine other table)
    (rising : table.Pairwise (· ≤ ·)) (ahead : point.1 < other.1) : point.2 ≤ other.2 := by
  induction first with
  | @here lower upper rest between =>
      have ordered := (List.pairwise_cons.mp rising).1 upper List.mem_cons_self
      cases second with
      | here otherBetween => exact between.value_le otherBetween ordered ahead
      | behind otherBehind =>
          exact (between.le ordered).2.2.trans (otherBehind.ge_head rising.of_cons).2
  | @behind lower rest onRest induction =>
      cases second with
      | here otherBetween =>
          -- A point of a piece is not farther than a point of the pieces behind it.
          have ordered := (List.pairwise_cons.mp rising).1 _ List.mem_cons_self
          have passed := (otherBetween.le ordered).2.1.trans (onRest.ge_head rising.of_cons).1
          exact absurd ahead (not_lt.mpr passed)
      | behind otherBehind => exact induction otherBehind rising.of_cons

end

/-! ## Interpolation -/

section

variable {lower upper : ℝ × ℝ} {rest : List (ℝ × ℝ)} {place : ℝ}

theorem valueBetween_real (lower upper : ℝ × ℝ) (place : ℝ) :
    valueBetween lower upper place =
      (upper.2 - lower.2) / (upper.1 - lower.1) * (place - lower.1) + lower.2 := by
  simp only [valueBetween, Bool.and_eq_true, Scalar.le_real]
  split
  · next same =>
      rw [le_antisymm same.2 same.1]
      ring
  · rfl

theorem valueFrom_cons_of_le (reached : upper.1 ≤ place) :
    valueFrom lower (upper :: rest) place = valueFrom upper rest place := by
  rw [valueFrom, if_pos (Scalar.le_real.mpr reached)]

theorem valueFrom_cons_of_lt (ahead : place < upper.1) :
    valueFrom lower (upper :: rest) place = valueBetween lower upper place := by
  rw [valueFrom, if_neg (by simpa using ahead)]

theorem interpolate_cons_of_le (reached : lower.1 ≤ place) :
    interpolate (lower :: rest) place = valueFrom lower rest place := by
  simp [interpolate, not_lt.mpr reached]

theorem between_valueBetween (reached : lower.1 ≤ place) (ahead : place < upper.1) :
    Between lower upper (place, valueBetween lower upper place) := by
  have positive : 0 < upper.1 - lower.1 := by linarith
  refine ⟨(place - lower.1) / (upper.1 - lower.1), ?_, ?_, ?_, ?_⟩
  · exact div_nonneg (by linarith) positive.le
  · rw [div_le_one positive]
    linarith
  · dsimp only
    field_simp
    ring
  · dsimp only
    rw [valueBetween_real]
    ring

/-- Interpolation stays on the line as long as it is within the table. -/
theorem onBrokenLine_valueFrom (rising : (lower :: rest).Pairwise (· ≤ ·))
    (reached : lower.1 ≤ place) (within : ∃ entry ∈ rest, place ≤ entry.1) :
    OnBrokenLine (place, valueFrom lower rest place) (lower :: rest) := by
  induction rest generalizing lower with
  | nil =>
      obtain ⟨_, member, _⟩ := within
      cases member
  | cons upper rest induction =>
      rcases lt_or_ge place upper.1 with ahead | passed
      · rw [valueFrom_cons_of_lt ahead]
        exact .here (between_valueBetween reached ahead)
      · rw [valueFrom_cons_of_le passed]
        cases rest with
        | nil =>
            obtain ⟨entry, member, most⟩ := within
            rw [List.mem_singleton.mp member] at most
            refine .here ⟨1, zero_le_one, le_refl 1, ?_, ?_⟩
            · rw [le_antisymm most passed]
              ring
            · rw [valueFrom]
              ring
        | cons next rest =>
            apply OnBrokenLine.behind
            apply induction rising.of_cons passed
            obtain ⟨entry, member, most⟩ := within
            rcases List.mem_cons.mp member with rfl | member
            · have ordered := (List.pairwise_cons.mp rising.of_cons).1 next List.mem_cons_self
              exact ⟨next, List.mem_cons_self, most.trans ordered.1⟩
            · exact ⟨entry, member, most⟩

/-- On a line whose places increase there is no other point at a place than the one that is
interpolated. -/
theorem valueFrom_of_onBrokenLine {point : ℝ × ℝ}
    (increasing : (lower :: rest).Pairwise fun first second => first.1 < second.1)
    (onLine : OnBrokenLine point (lower :: rest)) :
    lower.1 ≤ point.1 ∧ valueFrom lower rest point.1 = point.2 := by
  generalize line : lower :: rest = table at onLine increasing
  induction onLine generalizing lower rest with
  | @here lower upper rest between =>
      cases line
      obtain ⟨fromLower, increasing⟩ := List.pairwise_cons.mp increasing
      have step := fromLower upper List.mem_cons_self
      obtain ⟨portion, least, most, place, value⟩ := between
      refine ⟨by nlinarith, ?_⟩
      rcases most.lt_or_eq with ahead | rfl
      · rw [valueFrom_cons_of_lt (by nlinarith), valueBetween_real, place, value]
        have nonzero : upper.1 - lower.1 ≠ 0 := sub_ne_zero.mpr step.ne'
        field_simp
        ring
      · -- The end of a piece is interpolated as the start of the next one.
        have atUpper : point.1 = upper.1 := by linarith
        have valueAtUpper : point.2 = upper.2 := by linarith
        rw [valueFrom_cons_of_le atUpper.ge, atUpper, valueAtUpper]
        cases rest with
        | nil => rfl
        | cons next rest =>
            have nextStep := (List.pairwise_cons.mp increasing).1 next List.mem_cons_self
            rw [valueFrom_cons_of_lt nextStep, valueBetween_real]
            ring
  | @behind _ rest onRest induction =>
      cases line
      cases rest with
      | nil => cases onRest
      | cons next rest =>
          have step := (List.pairwise_cons.mp increasing).1 next List.mem_cons_self
          obtain ⟨reached, value⟩ := induction rfl increasing.of_cons
          exact ⟨step.le.trans reached, by rw [valueFrom_cons_of_le reached, value]⟩

/-- From the last place on the last value holds. -/
theorem valueFrom_of_forall_le (passed : ∀ entry ∈ rest, entry.1 ≤ place) :
    valueFrom lower rest place = ((lower :: rest).getLast (List.cons_ne_nil lower rest)).2 := by
  induction rest generalizing lower with
  | nil => rfl
  | cons upper rest induction =>
      rw [valueFrom_cons_of_le (passed upper List.mem_cons_self),
        induction fun entry member => passed entry (List.mem_cons_of_mem upper member),
        List.getLast_cons_cons]

/-- At the first place the value is that of an entry with this place. -/
theorem exists_valueFrom_eq (rising : (lower :: rest).Pairwise (· ≤ ·)) :
    ∃ entry ∈ lower :: rest, entry.1 = lower.1 ∧ valueFrom lower rest lower.1 = entry.2 := by
  induction rest generalizing lower with
  | nil => exact ⟨lower, List.mem_cons_self, rfl, rfl⟩
  | cons upper rest induction =>
      have ordered := (List.pairwise_cons.mp rising).1 upper List.mem_cons_self
      rcases ordered.1.lt_or_eq with ahead | same
      · refine ⟨lower, List.mem_cons_self, rfl, ?_⟩
        rw [valueFrom_cons_of_lt ahead, valueBetween_real]
        ring
      · obtain ⟨entry, member, place_eq, value_eq⟩ := induction rising.of_cons
        refine ⟨entry, List.mem_cons_of_mem lower member, place_eq.trans same.symm, ?_⟩
        rw [valueFrom_cons_of_le same.ge, same, value_eq]

end

end GrowthGrammar
