import Mathlib
import GrowthGrammar.Curve.Spline
import GrowthGrammar.Proofs.Geometry.Exact

/-!
# Splines are smooth

In exact numbers a spline goes through its points at equal steps of the parameter. The pieces before
and behind a point meet there with one velocity, and the spline through the points in reverse is the
same curve from the other end.
-/

namespace GrowthGrammar

namespace Spline

/-! ## Single coordinates -/

theorem hasDerivAt_cubic (constant linear square cube weight : ℝ) :
    HasDerivAt (fun w => constant + linear * w + square * (w * w) + cube * w ^ 3)
      (linear + square * (2 * weight) + cube * (3 * weight ^ 2)) weight := by
  have first := hasDerivAt_id weight
  have second : HasDerivAt (fun w => w * w) (2 * weight) weight :=
    (first.mul first).congr_deriv (by simp only [id]; ring)
  have third : HasDerivAt (fun w => w ^ 3) (3 * weight ^ 2) weight := hasDerivAt_pow 3 weight
  have sum := (((first.const_mul linear).const_add constant).add (second.const_mul square)).add
    (third.const_mul cube)
  exact sum.congr_deriv (by ring)

section

variable (tension before start stop behind : ℝ)

theorem blend_zero : blend tension before start stop behind 0 = start := by
  simp [blend]

theorem blend_one : blend tension before start stop behind 1 = stop := by
  simp only [blend, Scalar.two_real, Scalar.three_real, Scalar.cube_real]
  ring

theorem blend_reverse (weight : ℝ) :
    blend tension behind stop start before (1 - weight) =
      blend tension before start stop behind weight := by
  simp only [blend, Scalar.two_real, Scalar.three_real, Scalar.cube_real]
  ring

/-- The slope at either end is the tension times the way between the neighbours of the end. -/
theorem hasDerivAt_blend_zero :
    HasDerivAt (blend tension before start stop behind) (tension * (stop - before)) 0 := by
  apply (hasDerivAt_cubic _ _ _ _ 0).congr_deriv
  ring

theorem hasDerivAt_blend_one :
    HasDerivAt (blend tension before start stop behind) (tension * (behind - start)) 1 := by
  apply (hasDerivAt_cubic _ _ _ _ 1).congr_deriv
  simp only [Scalar.two_real, Scalar.three_real]
  ring

end

/-! ## Control points -/

theorem pieces_eq (spline : Spline α) : spline.pieces + 1 = spline.points.size := by
  have twoPoints := spline.twoPoints
  rw [pieces]
  omega

theorem pieces_pos (spline : Spline α) : 0 < spline.pieces := by
  have twoPoints := spline.twoPoints
  rw [pieces]
  omega

/-- The points that take part in the curve. -/
def padded [Scalar α] (spline : Spline α) : List (Vec3 α) :=
  List.ofFn spline.control

/-- A point on the piece between two points with two others around them. -/
def mix [Scalar α] (tension : α) (before start stop behind : Vec3 α) (weight : α) : Vec3 α :=
  { x := blend tension before.x start.x stop.x behind.x weight
    y := blend tension before.y start.y stop.y behind.y weight
    z := blend tension before.z start.z stop.z behind.z weight }

@[simp] theorem length_padded [Scalar α] (spline : Spline α) :
    spline.padded.length = spline.points.size + 2 :=
  List.length_ofFn

theorem getElem?_padded [Scalar α] (spline : Spline α) (place : Fin (spline.points.size + 2)) :
    spline.padded[place.val]? = some (spline.control place) := by
  rw [padded, List.getElem?_ofFn, dif_pos place.isLt]

/-- One point is before the first of the given ones and one behind the last. -/
theorem padded_eq [Scalar α] (spline : Spline α) (first : 0 < spline.points.size)
    (second : 1 < spline.points.size) (last : spline.points.size - 1 < spline.points.size)
    (other : spline.points.size - 2 < spline.points.size) :
    spline.padded = reflect spline.points[0] spline.points[1] :: spline.points.toList ++
      [reflect spline.points[spline.points.size - 1] spline.points[spline.points.size - 2]] := by
  apply List.ext_getElem?
  intro place
  by_cases bound : place < spline.points.size + 2
  · rw [spline.getElem?_padded ⟨place, bound⟩, control]
    cases place with
    | zero => rfl
    | succ place =>
        dsimp only
        rw [List.cons_append, List.getElem?_cons_succ, if_neg (Nat.succ_ne_zero place)]
        split
        · next inside =>
            rw [List.getElem?_append_left (by simpa using inside)]
            simp
        · next outside =>
            have behind : place - spline.points.toList.length = 0 := by
              rw [Array.length_toList]
              omega
            rw [List.getElem?_append_right (by rw [Array.length_toList]; omega), behind]
            rfl
  · rw [List.getElem?_eq_none (by rw [length_padded]; omega),
      List.getElem?_eq_none (by simp; omega)]

section

variable [Scalar α] (spline : Spline α)

theorem getElem?_padded_succ {place : Nat} (inside : place < spline.points.size) :
    spline.padded[place + 1]? = some spline.points[place] := by
  have twoPoints := spline.twoPoints
  rw [spline.padded_eq (by omega) (by omega) (by omega) (by omega), List.cons_append,
    List.getElem?_cons_succ, List.getElem?_append_left (by simpa using inside)]
  simp [inside]

/-- Four points in a row take part in a piece. -/
structure Takes (piece : Nat) (before start stop behind : Vec3 α) : Prop where
  before : spline.padded[piece]? = some before
  start : spline.padded[piece + 1]? = some start
  stop : spline.padded[piece + 2]? = some stop
  behind : spline.padded[piece + 3]? = some behind

theorem exists_takes (piece : Fin spline.pieces) :
    ∃ before start stop behind, spline.Takes piece before start stop behind ∧
      ∀ weight, spline.pieceAt piece weight =
        mix spline.tension before start stop behind weight := by
  have pieces_eq := spline.pieces_eq
  have below := piece.isLt
  exact ⟨_, _, _, _,
    { before := spline.getElem?_padded ⟨piece, by omega⟩
      start := spline.getElem?_padded ⟨piece + 1, by omega⟩
      stop := spline.getElem?_padded ⟨piece + 2, by omega⟩
      behind := spline.getElem?_padded ⟨piece + 3, by omega⟩ },
    fun _ => rfl⟩

variable {spline}

theorem Takes.pieceAt_eq {piece : Fin spline.pieces} {before start stop behind : Vec3 α}
    (takes : spline.Takes piece before start stop behind) (weight : α) :
    spline.pieceAt piece weight = mix spline.tension before start stop behind weight := by
  obtain ⟨_, _, _, _, others, pieceAt_eq⟩ := spline.exists_takes piece
  cases others.before.symm.trans takes.before
  cases others.start.symm.trans takes.start
  cases others.stop.symm.trans takes.stop
  cases others.behind.symm.trans takes.behind
  exact pieceAt_eq weight

end

/-! ## The pieces in exact numbers -/

section

variable (spline : Spline ℝ)

theorem pieceAt_zero (piece : Fin spline.pieces) :
    spline.points[piece.val]? = some (spline.pieceAt piece 0) := by
  obtain ⟨before, start, stop, behind, takes, pieceAt_eq⟩ := spline.exists_takes piece
  have inside : piece.val < spline.points.size := by
    have pieces_eq := spline.pieces_eq
    omega
  have found := spline.getElem?_padded_succ inside
  rw [takes.start] at found
  rw [Array.getElem?_eq_getElem inside, ← found, pieceAt_eq, mix, blend_zero, blend_zero,
    blend_zero]

theorem pieceAt_one (piece : Fin spline.pieces) :
    spline.points[piece.val + 1]? = some (spline.pieceAt piece 1) := by
  obtain ⟨before, start, stop, behind, takes, pieceAt_eq⟩ := spline.exists_takes piece
  have inside : piece.val + 1 < spline.points.size := by
    have pieces_eq := spline.pieces_eq
    omega
  have found := spline.getElem?_padded_succ inside
  rw [takes.stop] at found
  rw [Array.getElem?_eq_getElem inside, ← found, pieceAt_eq, mix, blend_one, blend_one,
    blend_one]

/-- Where one piece ends the next one starts. -/
theorem pieceAt_one_eq {first second : Fin spline.pieces} (next : second.val = first.val + 1) :
    spline.pieceAt first 1 = spline.pieceAt second 0 := by
  have ending := spline.pieceAt_one first
  rw [← next, spline.pieceAt_zero second] at ending
  exact (Option.some.inj ending).symm

/-- A parameter is a place on a piece. -/
theorem exists_place (t : ℝ) :
    ∃ (piece : Fin spline.pieces) (weight : ℝ), 0 ≤ weight ∧ weight ≤ 1 ∧
      piece + weight = spline.pieces * max 0 (min 1 t) := by
  have positive := spline.pieces_pos
  generalize position_eq : spline.pieces * max 0 (min 1 t) = position
  have least : 0 ≤ position := by
    rw [← position_eq]
    positivity
  have most : position ≤ spline.pieces := by
    rw [← position_eq]
    apply mul_le_of_le_one_right (Nat.cast_nonneg _)
    exact max_le zero_le_one (min_le_left 1 t)
  by_cases inside : ⌊position⌋₊ < spline.pieces
  · refine ⟨⟨⌊position⌋₊, inside⟩, position - ⌊position⌋₊, ?_, ?_, by simp⟩
    · exact sub_nonneg.mpr (Nat.floor_le least)
    · have below := Nat.lt_floor_add_one position
      linarith
  · have atEnd : position = spline.pieces := by
      apply le_antisymm most
      exact (Nat.le_floor_iff least).mp (not_lt.mp inside)
    refine ⟨⟨spline.pieces - 1, by omega⟩, 1, zero_le_one, le_refl 1, ?_⟩
    rw [atEnd, Nat.cast_sub positive]
    simp

/-- At a knot it does not matter to which of the two pieces the place belongs. -/
theorem point?_eq {t weight : ℝ} {piece : Fin spline.pieces} (least : 0 ≤ weight)
    (most : weight ≤ 1) (place : piece + weight = spline.pieces * max 0 (min 1 t)) :
    spline.point? t = some (spline.pieceAt piece weight) := by
  have positive := spline.pieces_pos
  have located : spline.locate? t =
      some (if inside : ⌊(piece : ℝ) + weight⌋₊ < spline.pieces then
        (⟨⌊(piece : ℝ) + weight⌋₊, inside⟩, piece + weight - ⌊(piece : ℝ) + weight⌋₊)
      else (⟨spline.pieces - 1, by omega⟩, 1)) := by
    simp only [locate?, Scalar.ofNat_real, Scalar.zero_real, Scalar.one_real,
      Scalar.clamp_real zero_le_one, Scalar.wholePart?_real, Option.map_some, place]
  rw [point?, located, Option.map_some]
  rcases most.lt_or_eq with below | rfl
  · have whole : ⌊(piece : ℝ) + weight⌋₊ = piece := by
      rw [Nat.floor_eq_iff (by positivity)]
      constructor <;> linarith
    simp [whole]
  · have whole : ⌊(piece : ℝ) + 1⌋₊ = piece + 1 := by
      rw [Nat.floor_add_one (Nat.cast_nonneg _), Nat.floor_natCast]
    by_cases inside : piece.val + 1 < spline.pieces
    · simpa [whole, inside] using (spline.pieceAt_one_eq rfl).symm
    · have last : spline.pieces - 1 = piece := by omega
      simp [whole, inside, last]

/-- The points are a step of the parameter apart from each other. -/
theorem point?_knot {place : Nat} (inside : place < spline.points.size) :
    spline.point? (place / spline.pieces) = some spline.points[place] := by
  have pieces_eq := spline.pieces_eq
  have positive : (0 : ℝ) < spline.pieces := Nat.cast_pos.mpr spline.pieces_pos
  have within : (place : ℝ) / spline.pieces ≤ 1 := by
    rw [div_le_one positive, Nat.cast_le]
    omega
  have scaled : spline.pieces * max 0 (min 1 ((place : ℝ) / spline.pieces)) = place := by
    rw [min_eq_right within, max_eq_right (by positivity), mul_div_cancel₀ _ positive.ne']
  rw [← Array.getElem?_eq_getElem inside]
  by_cases below : place < spline.pieces
  · have atStart : ((⟨place, below⟩ : Fin spline.pieces) : ℝ) + 0 =
        spline.pieces * max 0 (min 1 ((place : ℝ) / spline.pieces)) := by
      rw [scaled, add_zero]
    rw [spline.point?_eq (le_refl 0) zero_le_one atStart]
    exact (spline.pieceAt_zero ⟨place, below⟩).symm
  · have counted := spline.pieces_pos
    obtain ⟨piece, rfl⟩ : ∃ piece, place = piece + 1 := ⟨place - 1, by omega⟩
    have last : piece < spline.pieces := by omega
    have atStop : ((⟨piece, last⟩ : Fin spline.pieces) : ℝ) + 1 =
        spline.pieces * max 0 (min 1 (((piece + 1 : Nat) : ℝ) / spline.pieces)) := by
      rw [scaled, Nat.cast_succ]
    rw [spline.point?_eq zero_le_one (le_refl 1) atStop]
    exact (spline.pieceAt_one ⟨piece, last⟩).symm

theorem point?_zero : spline.point? 0 = spline.points[0]? := by
  have inside : 0 < spline.points.size := Nat.zero_lt_of_lt spline.twoPoints
  have first := spline.point?_knot inside
  rwa [Nat.cast_zero, zero_div, ← Array.getElem?_eq_getElem inside] at first

theorem point?_one : spline.point? 1 = spline.points.back? := by
  have inside : spline.pieces < spline.points.size := Nat.lt_of_succ_le spline.pieces_eq.le
  have nonzero : (spline.pieces : ℝ) ≠ 0 := Nat.cast_ne_zero.mpr spline.pieces_pos.ne'
  have last := spline.point?_knot inside
  rwa [div_self nonzero, ← Array.getElem?_eq_getElem inside] at last

theorem exists_point? (t : ℝ) : ∃ point, spline.point? t = some point := by
  obtain ⟨_, _, least, most, place⟩ := spline.exists_place t
  exact ⟨_, spline.point?_eq least most place⟩

end

/-- The velocity of a moving point, in each coordinate. -/
structure HasVelocityAt (path : ℝ → Vec3 ℝ) (velocity : Vec3 ℝ) (time : ℝ) : Prop where
  x : HasDerivAt (fun time => (path time).x) velocity.x time
  y : HasDerivAt (fun time => (path time).y) velocity.y time
  z : HasDerivAt (fun time => (path time).z) velocity.z time

section

variable {spline : Spline ℝ}

theorem Takes.velocity_zero {piece : Fin spline.pieces} {before start stop behind : Vec3 ℝ}
    (takes : spline.Takes piece before start stop behind) :
    HasVelocityAt (spline.pieceAt piece) ((stop - before).scale spline.tension) 0 := by
  rw [funext takes.pieceAt_eq]
  exact ⟨hasDerivAt_blend_zero _ _ _ _ _, hasDerivAt_blend_zero _ _ _ _ _,
    hasDerivAt_blend_zero _ _ _ _ _⟩

theorem Takes.velocity_one {piece : Fin spline.pieces} {before start stop behind : Vec3 ℝ}
    (takes : spline.Takes piece before start stop behind) :
    HasVelocityAt (spline.pieceAt piece) ((behind - start).scale spline.tension) 1 := by
  rw [funext takes.pieceAt_eq]
  exact ⟨hasDerivAt_blend_one _ _ _ _ _, hasDerivAt_blend_one _ _ _ _ _,
    hasDerivAt_blend_one _ _ _ _ _⟩

/-- The velocity behind a point is the one before it. -/
theorem exists_velocity {first second : Fin spline.pieces} (next : second.val = first.val + 1) :
    ∃ velocity, HasVelocityAt (spline.pieceAt first) velocity 1 ∧
      HasVelocityAt (spline.pieceAt second) velocity 0 := by
  obtain ⟨_, start, stop, behind, takesFirst, _⟩ := spline.exists_takes first
  obtain ⟨before, start', stop', _, takesSecond, _⟩ := spline.exists_takes second
  have start_eq : start = before := by
    have found := takesSecond.before
    rw [next, takesFirst.start] at found
    exact Option.some.inj found
  have behind_eq : behind = stop' := by
    have found := takesSecond.stop
    rw [next, takesFirst.behind] at found
    exact Option.some.inj found
  refine ⟨_, takesFirst.velocity_one, ?_⟩
  rw [start_eq, behind_eq]
  exact takesSecond.velocity_zero

end

/-! ## The points in reverse -/

def reverse (spline : Spline α) : Spline α :=
  { points := spline.points.reverse
    tension := spline.tension
    twoPoints := by simpa using spline.twoPoints }

theorem pieces_reverse (spline : Spline α) : spline.reverse.pieces = spline.pieces := by
  simp [pieces, reverse]

theorem padded_reverse [Scalar α] (spline : Spline α) :
    spline.reverse.padded = spline.padded.reverse := by
  have twoPoints := spline.twoPoints
  have twoReversed := spline.reverse.twoPoints
  have second : spline.points.size - 1 - (spline.points.size - 2) = 1 := by omega
  have other : spline.points.size - 1 - 1 = spline.points.size - 2 := by omega
  rw [spline.padded_eq (by omega) (by omega) (by omega) (by omega),
    spline.reverse.padded_eq (by omega) (by omega) (by omega) (by omega)]
  simp [reverse, Array.getElem_reverse, second, other]

theorem Takes.reverse [Scalar α] {spline : Spline α} {piece other : Nat}
    {before start stop behind : Vec3 α} (takes : spline.Takes piece before start stop behind)
    (opposite : piece + other + 1 = spline.pieces) :
    spline.reverse.Takes other behind stop start before := by
  have pieces_eq := spline.pieces_eq
  have length_eq : spline.padded.length = spline.pieces + 3 := by
    rw [length_padded]
    omega
  have mirrored {place : Nat} {point : Vec3 α} (found : spline.padded[place]? = some point)
      {image : Nat} (image_eq : image + place = spline.pieces + 2) :
      spline.reverse.padded[image]? = some point := by
    rw [padded_reverse, List.getElem?_reverse (by omega), length_eq]
    have place_eq : spline.pieces + 3 - 1 - image = place := by omega
    rw [place_eq, found]
  exact
    { before := mirrored takes.behind (by omega)
      start := mirrored takes.stop (by omega)
      stop := mirrored takes.start (by omega)
      behind := mirrored takes.before (by omega) }

/-- Parameters outside of the curve stand for its ends, from either end. -/
theorem clip_one_sub (t : ℝ) : max 0 (min 1 (1 - t)) = 1 - max 0 (min 1 t) := by
  rcases le_total t 0 with low | positive
  · have start : max 0 (min 1 t) = 0 := max_eq_left ((min_le_right 1 t).trans low)
    have stop : min 1 (1 - t) = 1 := min_eq_left (by linarith)
    rw [start, stop, max_eq_right zero_le_one, sub_zero]
  · have most : min 1 (1 - t) = 1 - t := min_eq_right (by linarith)
    rcases le_total t 1 with within | high
    · rw [most, min_eq_right within, max_eq_right positive, max_eq_right (by linarith)]
    · have stop : max 0 (1 - t) = 0 := max_eq_left (by linarith)
      rw [most, stop, min_eq_left high, max_eq_right zero_le_one, sub_self]

theorem point?_reverse (spline : Spline ℝ) (t : ℝ) :
    spline.reverse.point? t = spline.point? (1 - t) := by
  obtain ⟨piece, weight, least, most, place⟩ := spline.exists_place (1 - t)
  obtain ⟨before, start, stop, behind, takes, pieceAt_eq⟩ := spline.exists_takes piece
  have below := piece.isLt
  let other : Fin spline.reverse.pieces :=
    ⟨spline.pieces - 1 - piece, by rw [pieces_reverse]; omega⟩
  have opposite : piece.val + other.val + 1 = spline.pieces := by
    simp only [other]
    omega
  have placed : (other : ℝ) + (1 - weight) = spline.reverse.pieces * max 0 (min 1 t) := by
    have sum : (piece : ℝ) + other + 1 = spline.pieces := by exact_mod_cast opposite
    have pieces_eq : (spline.reverse.pieces : ℝ) = spline.pieces := by rw [pieces_reverse]
    rw [clip_one_sub] at place
    rw [pieces_eq]
    linarith
  rw [spline.point?_eq least most place, pieceAt_eq,
    spline.reverse.point?_eq (by linarith) (by linarith) placed,
    (takes.reverse opposite).pieceAt_eq, mix, mix]
  simp only [blend_reverse]
  rfl

/-! ## The curve as a whole -/

/-- A curve that goes through its points without a jump of place or velocity. -/
structure IsSmooth (spline : Spline ℝ) : Prop where
  /-- Parameters beyond the ends stand for the ends. -/
  places : ∀ t, ∃ (piece : Fin spline.pieces) (weight : ℝ), 0 ≤ weight ∧ weight ≤ 1 ∧
    piece + weight = (spline.points.size - 1) * max 0 (min 1 t) ∧
    spline.point? t = some (spline.pieceAt piece weight)
  /-- The four points that a piece takes are there. -/
  inside : ∀ piece : Fin spline.pieces, ∃ before start stop behind,
    spline.Takes piece before start stop behind ∧
      ∀ weight, spline.pieceAt piece weight =
        mix spline.tension before start stop behind weight
  knots : ∀ (place : Nat) (_ : place < spline.points.size),
    spline.point? (place / (spline.points.size - 1)) = some spline.points[place]
  /-- Two pieces adjoin at the point with the number of the second one. -/
  joints : ∀ first second : Fin spline.pieces, second.val = first.val + 1 →
    spline.points[second.val]? = some (spline.pieceAt first 1) ∧
      spline.pieceAt first 1 = spline.pieceAt second 0 ∧
      ∃ velocity, HasVelocityAt (spline.pieceAt first) velocity 1 ∧
        HasVelocityAt (spline.pieceAt second) velocity 0
  mirrored : ∀ t, spline.reverse.point? t = spline.point? (1 - t)

theorem isSmooth (spline : Spline ℝ) : spline.IsSmooth := by
  have pieces_eq : (spline.pieces : ℝ) = spline.points.size - 1 := by
    rw [← spline.pieces_eq, Nat.cast_succ, add_sub_cancel_right]
  exact
    { places := by
        intro t
        obtain ⟨piece, weight, least, most, place⟩ := spline.exists_place t
        exact ⟨piece, weight, least, most, pieces_eq ▸ place, spline.point?_eq least most place⟩
      inside := spline.exists_takes
      knots := fun place inside => pieces_eq ▸ spline.point?_knot inside
      joints := by
        intro first second next
        have joined := spline.pieceAt_one_eq next
        exact ⟨next ▸ spline.pieceAt_one first, joined, exists_velocity next⟩
      mirrored := spline.point?_reverse }

/-- Any two points or more have a curve, whatever the tension; it is smooth, and the points in
reverse have the mirrored one. -/
theorem ofPoints?_isSmooth {points : Array (Vec3 ℝ)} (twoPoints : 2 ≤ points.size)
    (tension : ℝ) :
    ∃ spline, ofPoints? points tension = some spline ∧
      ofPoints? points.reverse tension = some spline.reverse ∧
      spline.points = points ∧ spline.tension = tension ∧ spline.IsSmooth := by
  refine ⟨⟨points, tension, twoPoints⟩, dif_pos twoPoints, ?_, rfl, rfl, isSmooth _⟩
  exact dif_pos (by simpa using twoPoints)

/-- Both points beyond the ends come from the same two points. -/
theorem ofPoints?_isSmooth_of_two :
    2 ≤ (#[⟨0, 0, 0⟩, ⟨1, 2, 3⟩] : Array (Vec3 ℝ)).size ∧
      ∃ spline, ofPoints? #[⟨0, 0, 0⟩, ⟨1, 2, 3⟩] (1 / 2 : ℝ) = some spline ∧
        spline.IsSmooth ∧ spline.point? 0 = some ⟨0, 0, 0⟩ ∧ spline.point? 1 = some ⟨1, 2, 3⟩ := by
  have twoPoints : 2 ≤ (#[⟨0, 0, 0⟩, ⟨1, 2, 3⟩] : Array (Vec3 ℝ)).size := Nat.le_refl 2
  obtain ⟨spline, made, _, points_eq, _, smooth⟩ := ofPoints?_isSmooth twoPoints (1 / 2)
  have first := smooth.knots 0 (by rw [points_eq]; exact Nat.two_pos)
  have last := smooth.knots 1 (by rw [points_eq]; exact Nat.one_lt_two)
  refine ⟨twoPoints, spline, made, smooth, ?_, ?_⟩
  · simpa [points_eq] using first
  · norm_num [points_eq] at last
    exact last

end Spline

end GrowthGrammar
