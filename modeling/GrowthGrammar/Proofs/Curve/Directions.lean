import Mathlib
import GrowthGrammar.Proofs.Geometry.Solids

/-!
# Directions without gaps

A vector that is too short to have a direction takes over that of the last one before it that has
one, and in front of all of these the direction of the first. So every vector is given a direction.
-/

namespace GrowthGrammar

namespace Curve

section

variable [Scalar α]

/-- No vector from a place up to another one has a direction. -/
def IsGap (vectors : List (Vec3 α)) (start stop : Nat) : Prop :=
  ∀ place v, start ≤ place → place < stop → vectors[place]? = some v → hasDirection v = false

/-- The direction of the third axis. -/
def up : Vec3 α :=
  ⟨Scalar.zero, Scalar.zero, Scalar.one⟩

/-- The direction that is given to the vector at a place. -/
inductive IsGiven (vectors : List (Vec3 α)) (place : Nat) : Vec3 α → Prop
  /-- That of the last vector with a direction up to the place. -/
  | behind {source : Nat} {v : Vec3 α} (reached : source ≤ place)
      (found : vectors[source]? = some v) (directed : hasDirection v = true)
      (last : IsGap vectors (source + 1) (place + 1)) : IsGiven vectors place (unit v)
  /-- That of the first vector with a direction, which comes later. -/
  | ahead {source : Nat} {v : Vec3 α} (none : IsGap vectors 0 (place + 1))
      (found : vectors[source]? = some v) (directed : hasDirection v = true)
      (first : IsGap vectors 0 source) : IsGiven vectors place (unit v)
  | nowhere (none : IsGap vectors 0 vectors.length) : IsGiven vectors place up

/-! ## Gaps -/

variable {vectors : List (Vec3 α)} {v : Vec3 α} {start stop : Nat}

theorem isGap_self (vectors : List (Vec3 α)) (place : Nat) : IsGap vectors place place :=
  fun _ _ reached below _ => absurd below (Nat.not_lt.mpr reached)

theorem IsGap.cons (gap : IsGap vectors start stop) (v : Vec3 α) :
    IsGap (v :: vectors) (start + 1) (stop + 1) := by
  intro place w reached below found
  cases place with
  | zero => omega
  | succ place => exact gap place w (by omega) (by omega) found

theorem IsGap.cons_short (gap : IsGap vectors 0 stop) (short : hasDirection v = false) :
    IsGap (v :: vectors) 0 (stop + 1) := by
  intro place w _ below found
  cases place with
  | zero =>
      cases found
      exact short
  | succ place => exact gap place w (Nat.zero_le _) (by omega) found

/-! ## Directions that are taken over -/

/-- The direction that is given to the vector at a place behind a vector with a known one. -/
inductive IsTakenOver (previous : Vec3 α) (vectors : List (Vec3 α)) (place : Nat) : Vec3 α → Prop
  | known (none : IsGap vectors 0 (place + 1)) : IsTakenOver previous vectors place previous
  | behind {source : Nat} {v : Vec3 α} (reached : source ≤ place)
      (found : vectors[source]? = some v) (directed : hasDirection v = true)
      (last : IsGap vectors (source + 1) (place + 1)) :
      IsTakenOver previous vectors place (unit v)

/-- What is known behind a vector. -/
def directionBehind (previous v : Vec3 α) : Vec3 α :=
  if hasDirection v then unit v else previous

theorem isTakenOver_head (previous v : Vec3 α) (vectors : List (Vec3 α)) :
    IsTakenOver previous (v :: vectors) 0 (directionBehind previous v) := by
  rw [directionBehind]
  split
  · next directed => exact .behind (le_refl 0) rfl directed (isGap_self _ 1)
  · next short => exact .known ((isGap_self _ 0).cons_short (Bool.eq_false_of_not_eq_true short))

theorem IsTakenOver.cons {previous v direction : Vec3 α} {place : Nat}
    (takenOver : IsTakenOver (directionBehind previous v) vectors place direction) :
    IsTakenOver previous (v :: vectors) (place + 1) direction := by
  cases takenOver with
  | behind reached found directed last =>
      exact .behind (Nat.succ_le_succ reached) found directed (last.cons v)
  | known none =>
      rw [directionBehind]
      split
      · next directed => exact .behind (Nat.zero_le _) rfl directed (none.cons v)
      · next short => exact .known (none.cons_short (Bool.eq_false_of_not_eq_true short))

theorem exists_isTakenOver (previous : Vec3 α) {place : Nat} (inside : place < vectors.length) :
    ∃ direction, (directionsFrom previous vectors)[place]? = some direction ∧
      IsTakenOver previous vectors place direction := by
  induction vectors generalizing previous place with
  | nil => cases inside
  | cons v vectors induction =>
      cases place with
      | zero => exact ⟨_, rfl, isTakenOver_head previous v vectors⟩
      | succ place =>
          rcases induction (directionBehind previous v) (Nat.lt_of_succ_lt_succ inside) with
            ⟨direction, given, takenOver⟩
          exact ⟨direction, given, takenOver.cons⟩

/-! ## The first direction -/

theorem isGap_of_find?_eq_none (none : vectors.find? hasDirection = none) :
    IsGap vectors 0 vectors.length := by
  intro place v _ _ found
  have short := List.find?_eq_none.mp none v (List.mem_of_getElem? found)
  simpa using short

theorem exists_of_find?_eq_some (found : vectors.find? hasDirection = some v) :
    ∃ source, vectors[source]? = some v ∧ hasDirection v = true ∧ IsGap vectors 0 source := by
  rcases List.find?_eq_some_iff_getElem.mp found with ⟨directed, source, inside, v_eq, first⟩
  refine ⟨source, List.getElem?_eq_some_iff.mpr ⟨inside, v_eq⟩, directed, ?_⟩
  intro place w _ below other
  rcases List.getElem?_eq_some_iff.mp other with ⟨_, w_eq⟩
  simpa [w_eq] using first place below

theorem exists_isGiven {place : Nat} (inside : place < vectors.length) :
    ∃ direction, (directions vectors)[place]? = some direction ∧
      IsGiven vectors place direction := by
  rw [directions]
  cases search : vectors.find? hasDirection with
  | none =>
      rcases exists_isTakenOver up inside with ⟨direction, given, takenOver⟩
      refine ⟨direction, given, ?_⟩
      cases takenOver with
      | known _ => exact .nowhere (isGap_of_find?_eq_none search)
      | behind reached found directed last => exact .behind reached found directed last
  | some first =>
      rcases exists_isTakenOver (unit first) inside with ⟨direction, given, takenOver⟩
      refine ⟨direction, given, ?_⟩
      cases takenOver with
      | known none =>
          rcases exists_of_find?_eq_some search with ⟨source, found, directed, before⟩
          exact .ahead none found directed before
      | behind reached found directed last => exact .behind reached found directed last

/-! ## All directions -/

/-- Each vector is given a direction: its own if it has one, and otherwise that of another one. -/
structure FillsGaps (vectors directions : List (Vec3 α)) : Prop where
  length_eq : directions.length = vectors.length
  given : ∀ place < vectors.length, ∃ direction,
    directions[place]? = some direction ∧ IsGiven vectors place direction
  own : ∀ (place : Nat) (v : Vec3 α), vectors[place]? = some v → hasDirection v = true →
    directions[place]? = some (unit v)
  repeated : ∀ direction ∈ directions,
    (∃ v ∈ vectors, hasDirection v = true ∧ direction = unit v) ∨
      direction = up ∧ ∀ v ∈ vectors, hasDirection v = false

theorem IsGiven.eq_unit {place : Nat} {direction : Vec3 α} (given : IsGiven vectors place direction)
    (found : vectors[place]? = some v) (directed : hasDirection v = true) :
    direction = unit v := by
  have contradiction {start stop : Nat} (gap : IsGap vectors start stop) (reached : start ≤ place)
      (below : place < stop) : False :=
    Bool.false_ne_true ((gap place v reached below found).symm.trans directed)
  cases given with
  | @behind source w reached sourceFound _ last =>
      rcases reached.lt_or_eq with earlier | rfl
      · exact (contradiction last earlier (Nat.lt_succ_self place)).elim
      · rw [Option.some.inj (sourceFound.symm.trans found)]
  | ahead none => exact (contradiction none (Nat.zero_le _) (Nat.lt_succ_self place)).elim
  | nowhere none =>
      have inside := (List.getElem?_eq_some_iff.mp found).1
      exact (contradiction none (Nat.zero_le _) inside).elim

theorem IsGiven.eq_unit_or_up {place : Nat} {direction : Vec3 α}
    (given : IsGiven vectors place direction) :
    (∃ v ∈ vectors, hasDirection v = true ∧ direction = unit v) ∨
      direction = up ∧ ∀ v ∈ vectors, hasDirection v = false := by
  cases given with
  | @behind source v _ found directed _ =>
      exact .inl ⟨v, List.mem_of_getElem? found, directed, rfl⟩
  | @ahead source v _ found directed _ =>
      exact .inl ⟨v, List.mem_of_getElem? found, directed, rfl⟩
  | nowhere none =>
      refine .inr ⟨rfl, fun v member => ?_⟩
      rcases List.getElem_of_mem member with ⟨place, inside, v_eq⟩
      exact none place v (Nat.zero_le _) inside (List.getElem?_eq_some_iff.mpr ⟨inside, v_eq⟩)

theorem length_directions (vectors : List (Vec3 α)) :
    (directions vectors).length = vectors.length :=
  length_directionsFrom _ vectors

theorem fillsGaps (vectors : List (Vec3 α)) : FillsGaps vectors (directions vectors) where
  length_eq := length_directions vectors
  given place inside := exists_isGiven inside
  own place v found directed := by
    rcases exists_isGiven (List.getElem?_eq_some_iff.mp found).1 with ⟨direction, at_place, given⟩
    rw [at_place, given.eq_unit found directed]
  repeated direction member := by
    rcases List.getElem_of_mem member with ⟨place, inside, direction_eq⟩
    rcases exists_isGiven (length_directions vectors ▸ inside) with ⟨other, at_place, given⟩
    have found := List.getElem?_eq_some_iff.mpr ⟨inside, direction_eq⟩
    rw [Option.some.inj (found.symm.trans at_place)]
    exact given.eq_unit_or_up

/-! ## Doubles -/

theorem hasDirection_float_iff (v : Vec3 Float) : hasDirection v = true ↔ 1e-12 < v.norm := by
  have shortest_eq : (shortest : Float) = 1e-12 := by decide +kernel
  rw [hasDirection, shortest_eq]
  exact decide_eq_true_iff

theorem hasDirection_of_isNaN {v : Vec3 Float} (nan : v.norm.isNaN = true) :
    hasDirection v = false := by
  rw [Float.isNaN_eq_decide_eq_nan] at nan
  rw [hasDirection, of_decide_eq_true nan]
  decide +kernel

/-- No vector is left without a direction, whichever of them have one of their own. A vector of
doubles has one just if it is longer than a fixed length, and not if its length is not a number. -/
theorem directions_fill_gaps :
    (∀ vectors : List (Vec3 α), FillsGaps vectors (directions vectors)) ∧
      ∀ v : Vec3 Float, (hasDirection v = true ↔ 1e-12 < v.norm) ∧
        (v.norm.isNaN = true → hasDirection v = false) :=
  ⟨fillsGaps, fun v => ⟨hasDirection_float_iff v, hasDirection_of_isNaN⟩⟩

end

/-- Vectors without a direction at the start, on the way, and at the end; of one of them the length
is not a number. -/
theorem directions_fill_gaps_of_five :
    let vectors : List (Vec3 Float) :=
      [⟨0, 0, 0⟩, ⟨0, 2, 0⟩, ⟨0 / 0, 1, 0⟩, ⟨3, 0, 0⟩, ⟨0, 1e-13, 0⟩]
    directions vectors = [⟨0, 1, 0⟩, ⟨0, 1, 0⟩, ⟨0, 1, 0⟩, ⟨1, 0, 0⟩, ⟨1, 0, 0⟩] ∧
      FillsGaps vectors (directions vectors) ∧
      (⟨0 / 0, 1, 0⟩ : Vec3 Float).norm.isNaN = true ∧
      hasDirection (⟨0 / 0, 1, 0⟩ : Vec3 Float) = false := by
  intro vectors
  have fills := directions_fill_gaps (α := Float)
  have nan : (⟨0 / 0, 1, 0⟩ : Vec3 Float).norm.isNaN = true := by decide +kernel
  exact ⟨by decide +kernel, fills.1 vectors, nan, (fills.2 _).2 nan⟩

end Curve

end GrowthGrammar
