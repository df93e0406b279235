import Mathlib
import GrowthGrammar.Curve.Tube
import GrowthGrammar.Proofs.Curve.Transport

/-!
# Rings of a tube

A tube has a ring around each of its centers, in the plane across the tangent of the path there.
-/

namespace GrowthGrammar

open Fallible PathFrame

/-! ## Lists of rings -/

/-- Items of parts that are all of one length. -/
theorem getElem?_flatMap_of_length {items : List α} {part : α → List β} {length : Nat}
    (length_eq : ∀ item, (part item).length = length) (place : Nat) {column : Nat}
    (inside : column < length) :
    (items.flatMap part)[length * place + column]? =
      items[place]?.bind fun item => (part item)[column]? := by
  induction items generalizing place with
  | nil => rfl
  | cons item items induction =>
      rw [List.flatMap_cons]
      cases place with
      | zero =>
          rw [Nat.mul_zero, Nat.zero_add, List.getElem?_append_left (length_eq item ▸ inside)]
          rfl
      | succ place =>
          have behind : length * (place + 1) + column = length + (length * place + column) := by
            rw [Nat.mul_succ]
            omega
          rw [behind, List.getElem?_append_right (by rw [length_eq]; omega), length_eq,
            Nat.add_sub_cancel_left, induction]
          rfl

/-- What can be read from every item can be read from a list of them. -/
theorem exists_mapM_of_forall {read : α → Except ε β}
    (each : ∀ item, ∃ value, read item = .ok value) (items : List α) :
    ∃ values, items.mapM read = .ok values ∧ values.length = items.length := by
  have related : ∀ item ∈ items, ∃ value, read item = .ok value ∧ True := by
    simpa using fun item _ => each item
  rcases exists_mapM_eq_ok related with ⟨values, values_eq, paired⟩
  exact ⟨values, values_eq, paired.length_eq.symm⟩

/-! ## Single rings -/

/-- A vertex lies across a tangent from a center, at a distance. -/
structure IsOnRing (center tangent : Vec3 ℝ) (distance : ℝ) (vertex : Vec3 ℝ) : Prop where
  across : (vertex - center).dot tangent = 0
  distance_eq : (vertex - center).norm = distance

theorem combine_dot (first second v : Vec3 ℝ) (a b factor : ℝ) :
    ((first.scale a + second.scale b).scale factor).dot v =
      factor * (a * first.dot v + b * second.dot v) := by
  simp only [Vec3.dot_eq, Vec3.scale, Vec3.add_x, Vec3.add_y, Vec3.add_z]
  ring

/-- Of axes of length one that are perpendicular to each other a circle is made. -/
theorem combine_dot_self {first second : Vec3 ℝ} (unitFirst : first.dot first = 1)
    (unitSecond : second.dot second = 1) (perpendicular : first.dot second = 0) {a b : ℝ}
    (circle : a * a + b * b = 1) (factor : ℝ) :
    ((first.scale a + second.scale b).scale factor).dot
      ((first.scale a + second.scale b).scale factor) = factor * factor := by
  rw [combine_dot, Vec3.dot_comm first, Vec3.dot_comm second, combine_dot, combine_dot, unitFirst,
    unitSecond, Vec3.dot_comm second, perpendicular]
  linear_combination factor * factor * circle

theorem isOnRing_of_mem_ring {tangent center vertex : Vec3 ℝ} {frame : PathFrame ℝ} {radius : ℝ}
    {radial : Nat} (unitTangent : tangent.norm = 1) (across : IsAcross tangent frame)
    (member : vertex ∈ Solid.ring center frame radius radial) :
    IsOnRing center tangent |radius| vertex := by
  rcases List.mem_map.mp member with ⟨i, -, rfl⟩
  dsimp only
  generalize Scalar.stepPoint (Scalar.two * Scalar.pi : ℝ) radial i = angle
  rcases across with ⟨-, unitNormal, perpendicular, binormal_eq⟩
  rw [Vec3.norm_eq_one_iff] at unitTangent unitNormal
  have unitBinormal : frame.binormal.dot frame.binormal = 1 := by
    rw [binormal_eq, Vec3.cross_dot_cross, Vec3.dot_comm tangent frame.normal, perpendicular,
      unitTangent, unitNormal]
    norm_num
  have binormalAcross : frame.binormal.dot tangent = 0 := by
    rw [binormal_eq, Vec3.cross_dot_self_left]
  have axesPerpendicular : frame.normal.dot frame.binormal = 0 := by
    rw [binormal_eq, Vec3.dot_comm, Vec3.cross_dot_self_right]
  have circle :
      -Scalar.cos angle * -Scalar.cos angle + Scalar.sin angle * Scalar.sin angle = 1 := by
    rw [neg_mul_neg]
    exact ExactScalar.circle angle
  constructor
  · rw [Vec3.add_sub_cancel_left, combine_dot, perpendicular, binormalAcross]
    ring
  · have square := combine_dot_self unitNormal unitBinormal axesPerpendicular circle radius
    rw [Vec3.add_sub_cancel_left, Vec3.norm, square]
    exact Real.sqrt_mul_self_eq_abs radius

/-! ## Tubes in exact numbers -/

namespace Curve

theorem norm_of_mem_directions {vectors : List (Vec3 ℝ)} {direction : Vec3 ℝ}
    (member : direction ∈ directions vectors) : direction.norm = 1 := by
  rcases (fillsGaps vectors).repeated direction member with ⟨v, _, directed, rfl⟩ | ⟨rfl, _⟩
  · exact norm_unit (norm_pos_of_hasDirection directed).ne'
  · simp [Vec3.norm_real, up]

theorem exists_point (curve : Curve ℝ) (t : ℝ) : ∃ point, curve.point t = .ok point := by
  rcases curve.spline.exists_point? t with ⟨point, found⟩
  exact ⟨point, by rw [Curve.point, found]⟩

theorem exists_secantAt (curve : Curve ℝ) (fraction : ℝ) :
    ∃ secant, curve.secantAt fraction = .ok secant := by
  rcases curve.exists_point
    (Scalar.clamp Scalar.zero Scalar.one (curve.parameterAt fraction - secantStep))
    with ⟨before, before_eq⟩
  rcases curve.exists_point
    (Scalar.clamp Scalar.zero Scalar.one (curve.parameterAt fraction + secantStep))
    with ⟨behind, behind_eq⟩
  refine ⟨behind - before, ?_⟩
  simp only [secantAt, before_eq, behind_eq, ok_bind]
  rfl

/-- Without rounding a curve has a center and a tangent of length one at each fraction. -/
theorem exists_tangentsAt (curve : Curve ℝ) (fractions : List ℝ) :
    ∃ tangents, curve.tangentsAt fractions = .ok tangents ∧
      ∀ tangent ∈ tangents, tangent.norm = 1 := by
  rcases exists_mapM_of_forall curve.exists_secantAt fractions with ⟨secants, secants_eq, -⟩
  refine ⟨directions secants, ?_, fun _ => norm_of_mem_directions⟩
  rw [tangentsAt, secants_eq]
  rfl

theorem exists_pointAt (curve : Curve ℝ) (fractions : List ℝ) :
    ∃ centers, fractions.mapM curve.pointAt = .ok centers ∧ centers.length = fractions.length :=
  exists_mapM_of_forall (fun fraction => curve.exists_point (curve.parameterAt fraction)) fractions

end Curve

namespace Solid

/-- The fractions of a length at which there are rings. -/
def ringFractions [Scalar α] (count : Nat) : List α :=
  (List.range (count + 1)).map (Scalar.stepPoint Scalar.one count)

/-- The vertices of a tube, ring by ring, are around the centers, across the tangents. -/
def HasRings (centers tangents : List (Vec3 ℝ)) (radius : ℝ) (count radial : Nat)
    (solid : Solid ℝ) : Prop :=
  ∀ ring ≤ count, ∀ column ≤ radial, ∃ center tangent vertex,
    centers[ring]? = some center ∧ tangents[ring]? = some tangent ∧
      solid.vertices[tubePlace radial ring column]? = some vertex ∧
      IsOnRing center tangent |radius| vertex

theorem hasRings_of_isPath {centers tangents : List (Vec3 ℝ)} {radius : ℝ} {count radial : Nat}
    {solid : Solid ℝ} (centers_length : centers.length = count + 1)
    (tangents_length : tangents.length = count + 1) (path : IsPath tangents)
    (vertices_eq : solid.vertices = (centers.zip (ofTangents tangents)).flatMap
      fun (center, frame) => ring center frame radius radial) :
    HasRings centers tangents radius count radial solid := by
  intro place inRings column inColumns
  have across := (followsPath_ofTangents path).across
  have inCenters : place < centers.length := by omega
  have inTangents : place < tangents.length := by omega
  have inFrames : place < (ofTangents tangents).length := across.length_eq ▸ inTangents
  have inZip : (centers.zip (ofTangents tangents))[place]? =
      some (centers[place], (ofTangents tangents)[place]) := by
    rw [List.getElem?_eq_getElem (by rw [List.length_zip]; omega), List.getElem_zip]
  let vertices := ring centers[place] (ofTangents tangents)[place] radius radial
  have inRing : column < vertices.length := by
    simp only [vertices, ring, List.length_map, List.length_range]
    omega
  refine ⟨centers[place], tangents[place], vertices[column], List.getElem?_eq_getElem inCenters,
    List.getElem?_eq_getElem inTangents, ?_, ?_⟩
  · have part_length : ∀ item : Vec3 ℝ × PathFrame ℝ,
        (ring item.1 item.2 radius radial).length = radial + 1 := by
      simp [ring]
    rw [vertices_eq, tubePlace, getElem?_flatMap_of_length part_length place (by omega), inZip]
    exact List.getElem?_eq_getElem inRing
  · exact isOnRing_of_mem_ring (path.units _ (List.getElem_mem inTangents))
      (across.get inTangents inFrames) (List.getElem_mem inRing)

/-- The tube of a curve with its centers and the tangents there. -/
structure IsTube (curve : Curve ℝ) (tubular : Int) (radius : ℝ) (radialSegments : Int)
    (centers tangents : List (Vec3 ℝ)) (solid : Solid ℝ) : Prop where
  centers_eq : (ringFractions (segments 1 tubular)).mapM curve.pointAt = .ok centers
  tangents_eq : curve.tangentsAt (ringFractions (segments 1 tubular)) = .ok tangents
  made : tube curve tubular radius radialSegments = .ok solid
  units : ∀ tangent ∈ tangents, tangent.norm = 1
  rings : tangents.IsChain Turns →
    HasRings centers tangents radius (segments 1 tubular) (segments 3 radialSegments) solid

/-- Without rounding every curve has a tube. -/
theorem exists_tube (curve : Curve ℝ) (tubular : Int) (radius : ℝ) (radialSegments : Int) :
    ∃ centers tangents solid,
      IsTube curve tubular radius radialSegments centers tangents solid := by
  let count := segments 1 tubular
  let radial := segments 3 radialSegments
  rcases curve.exists_pointAt (ringFractions count) with ⟨centers, centers_eq, centers_length⟩
  rcases curve.exists_tangentsAt (ringFractions count) with ⟨tangents, tangents_eq, units⟩
  have fractions_length : (ringFractions count : List ℝ).length = count + 1 := by
    simp [ringFractions]
  have tangents_length := Curve.length_tangentsAt tangents_eq
  let solid : Solid ℝ :=
    { vertices := (centers.zip (ofTangents tangents)).flatMap fun (center, frame) =>
        ring center frame radius radial
      faces := tubeFaces count radial }
  have made : tube curve tubular radius radialSegments = .ok solid := by
    rw [ringFractions] at centers_eq tangents_eq
    simp only [tube, count, centers_eq, tangents_eq, ok_bind]
    rfl
  exact ⟨centers, tangents, solid,
    { centers_eq
      tangents_eq
      made
      units
      rings := fun turns => hasRings_of_isPath (centers_length.trans fractions_length)
        (tangents_length.trans fractions_length) ⟨units, turns⟩ rfl }⟩

/-- The frames along every path of unit tangents are across the tangents and do not twist, and the
first of them is well defined. So the rings around all centers are across the tangents, and so are
those of the tube of every curve. -/
theorem rings_follow_path :
    (∀ (tangent : Vec3 ℝ) (tangents : List (Vec3 ℝ)), IsPath (tangent :: tangents) →
      (tangent.cross (leastAxis tangent)).norm ≠ 0 ∧
        FollowsPath (tangent :: tangents) (ofTangents (tangent :: tangents)) ∧
        ∀ (center : Vec3 ℝ) (radius : ℝ) (radial : Nat), List.Forall₂
          (fun tangent frame => ∀ vertex ∈ ring center frame radius radial,
            IsOnRing center tangent |radius| vertex)
          (tangent :: tangents) (ofTangents (tangent :: tangents))) ∧
      ∀ (curve : Curve ℝ) (tubular : Int) (radius : ℝ) (radialSegments : Int),
        ∃ centers tangents solid,
          IsTube curve tubular radius radialSegments centers tangents solid := by
  refine ⟨fun tangent tangents path => ?_, exists_tube⟩
  have follows := followsPath_ofTangents path
  refine ⟨norm_cross_leastAxis (path.units tangent List.mem_cons_self), follows, ?_⟩
  intro center radius radial
  have framed := (List.forall₂_and_left _ _).mpr ⟨path.units, follows.across⟩
  exact framed.imp fun _ _ ⟨unitTangent, across⟩ _ member =>
    isOnRing_of_mem_ring unitTangent across member

/-- Along the third axis of the world. -/
def IsVertical (v : Vec3 ℝ) : Prop :=
  v.x = 0 ∧ v.y = 0

theorem IsVertical.turns {v w : Vec3 ℝ} (first : IsVertical v) (second : IsVertical w) :
    Turns v w := by
  refine .inl ?_
  ext <;> simp [Vec3.cross, Vec3.zero, first.1, first.2, second.1, second.2]

/-- The pieces of a spline through points above each other are vertical. -/
theorem isVertical_of_point? {height : ℝ} {spline : Spline ℝ}
    (points_eq : spline.points = #[⟨0, 0, 0⟩, ⟨0, 0, height⟩]) {t : ℝ} {point : Vec3 ℝ}
    (found : spline.point? t = some point) : IsVertical point := by
  rcases spline with ⟨points, tension, twoPoints⟩
  subst points_eq
  rcases Option.map_eq_some_iff.mp found with ⟨⟨piece, weight⟩, -, rfl⟩
  have first : piece = ⟨0, Nat.one_pos⟩ := Fin.ext (Nat.lt_one_iff.mp piece.isLt)
  subst first
  simp [IsVertical, Spline.pieceAt, Spline.control, Spline.reflect, Spline.blend, Vec3.scale]

theorem isVertical_of_tangentsAt {height : ℝ} {curve : Curve ℝ}
    (points_eq : curve.spline.points = #[⟨0, 0, 0⟩, ⟨0, 0, height⟩]) {fractions : List ℝ}
    {tangents : List (Vec3 ℝ)} (made : curve.tangentsAt fractions = .ok tangents) :
    ∀ tangent ∈ tangents, IsVertical tangent := by
  have points {t : ℝ} {point : Vec3 ℝ} (found : curve.point t = .ok point) : IsVertical point := by
    rcases curve.spline.exists_point? t with ⟨other, other_eq⟩
    rw [Curve.point, other_eq] at found
    cases found
    exact isVertical_of_point? points_eq other_eq
  rcases map_eq_ok_iff.mp made with ⟨secants, secants_eq, rfl⟩
  intro tangent member
  rcases (Curve.fillsGaps secants).repeated tangent member with ⟨secant, given, _, rfl⟩ | ⟨rfl, _⟩
  · rcases exists_mem_of_mapM_eq_ok secants_eq given with ⟨fraction, _, secant_eq⟩
    rcases bind_eq_ok_iff.mp secant_eq with ⟨before, before_eq, secant_eq⟩
    rcases bind_eq_ok_iff.mp secant_eq with ⟨behind, behind_eq, secant_eq⟩
    cases secant_eq
    have first := points before_eq
    have second := points behind_eq
    simp [IsVertical, Curve.unit, Vec3.divide, first.1, first.2, second.1, second.2]
  · simp [IsVertical, Curve.up]

/-- A path that turns by a right angle and back on itself, and goes straight on; and a straight
tube. -/
theorem rings_follow_path_of_turns :
    let path : List (Vec3 ℝ) := [⟨0, 0, 1⟩, ⟨1, 0, 0⟩, ⟨-1, 0, 0⟩, ⟨-1, 0, 0⟩]
    (IsPath path ∧ FollowsPath path (ofTangents path)) ∧
      ∃ curve centers tangents solid,
        Curve.ofPoints #[⟨0, 0, 0⟩, ⟨0, 0, 1⟩] (1 / 2 : ℝ) = .ok curve ∧
        tube curve 2 1 5 = .ok solid ∧ tangents.IsChain Turns ∧
        HasRings centers tangents 1 2 5 solid := by
  intro path
  have right : Turns ⟨0, 0, 1⟩ ⟨1, 0, 0⟩ := by
    refine .inr ?_
    norm_num [Vec3.norm_real, Vec3.cross]
  have back : Turns ⟨1, 0, 0⟩ ⟨-1, 0, 0⟩ := by
    refine .inl ?_
    ext <;> simp [Vec3.cross, Vec3.zero]
  have ahead : Turns ⟨-1, 0, 0⟩ ⟨-1, 0, 0⟩ := by
    refine .inl ?_
    ext <;> simp [Vec3.cross, Vec3.zero]
  have isPath : IsPath path :=
    { units := by simp [path, Vec3.norm_real]
      turns := by simp [path, right, back, ahead] }
  refine ⟨⟨isPath, (rings_follow_path.1 _ _ isPath).2.1⟩, ?_⟩
  let spline : Spline ℝ := ⟨#[⟨0, 0, 0⟩, ⟨0, 0, 1⟩], 1 / 2, Nat.le_refl 2⟩
  rcases rings_follow_path.2 (Curve.ofSpline spline) 2 1 5 with ⟨centers, tangents, solid, isTube⟩
  have points_eq : (Curve.ofSpline spline).spline.points = #[⟨0, 0, 0⟩, ⟨0, 0, 1⟩] := rfl
  have vertical := isVertical_of_tangentsAt points_eq isTube.tangents_eq
  have turns : tangents.IsChain Turns := by
    apply List.Pairwise.isChain
    apply List.pairwise_of_forall_mem_list
    intro first firstMember second secondMember
    exact (vertical first firstMember).turns (vertical second secondMember)
  exact ⟨_, centers, tangents, solid, rfl, isTube.made, turns, isTube.rings turns⟩

end Solid

end GrowthGrammar
