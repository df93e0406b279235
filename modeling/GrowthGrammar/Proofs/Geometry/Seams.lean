import GrowthGrammar.Proofs.Curve.Rings
import GrowthGrammar.Proofs.Geometry.Revolution

/-!
# Spheres and tubes close at their seams

The rows of a sphere and the rings of a tube end with the vertex that they begin with, and a sphere
has a whole row of vertices at each pole. Once these are glued together a sphere has no boundary,
and a tube has one at either end.
-/

namespace GrowthGrammar

namespace Solid

/-! ## Gluing grids -/

/-- The spot of a vertex in a grid whose last column is glued to the first. The poles are rows that
are glued together. -/
def gridSpot (pole : Nat → Bool) (width place : Nat) : Nat × Nat :=
  let row := place / (width + 1)
  let column := place % (width + 1)
  (row, if pole row || column = width then 0 else column)

def spherePole (height row : Nat) : Bool :=
  row = 0 || row = height

theorem gridPlace_div {width row column : Nat} (inside : column ≤ width) :
    gridPlace width row column / (width + 1) = row := by
  rw [gridPlace, Nat.mul_comm, Nat.mul_add_div (Nat.succ_pos width),
    Nat.div_eq_of_lt (Nat.lt_succ_of_le inside), Nat.add_zero]

theorem gridPlace_mod {width row column : Nat} (inside : column ≤ width) :
    gridPlace width row column % (width + 1) = column := by
  rw [gridPlace, Nat.mul_comm, Nat.mul_add_mod, Nat.mod_eq_of_lt (Nat.lt_succ_of_le inside)]

variable (surface : Revolution)

theorem gridSpot_gridPlace {row column : Nat} (inside : column < surface.width) :
    gridSpot surface.pole surface.width (gridPlace surface.width row column) =
      surface.spot row column := by
  rw [gridSpot, gridPlace_div (Nat.le_of_lt inside), gridPlace_mod (Nat.le_of_lt inside)]
  simp [Revolution.spot, Nat.ne_of_lt inside]

theorem gridSpot_gridPlace_succ {row column : Nat} (inside : column < surface.width) :
    gridSpot surface.pole surface.width (gridPlace surface.width row (column + 1)) =
      surface.spot row (surface.next column) := by
  rw [gridSpot, gridPlace_div inside, gridPlace_mod inside, Revolution.next_eq inside]
  simp only [Revolution.spot]
  split <;> split <;> simp_all

/-! ## Spheres -/

/-- From pole to pole, with cells that are cut from each spot to the one ahead in the next row. -/
def sphereSurface (width height : Nat) (several : 3 ≤ width) (tall : 2 ≤ height) : Revolution where
  width := width
  height := height
  pole := spherePole height
  falling := true
  several := several
  apart row pole := by
    simp [spherePole] at pole ⊢
    omega

/-- The courses of the triangles of a cell, in the order in which these are listed. -/
def sphereCourses (height row : Nat) : List Course :=
  (if row = 0 then [] else [.back] ++ (if row + 1 = height then [.down] else [.slant]) ++ [.up]) ++
    (if row + 1 = height then [] else
      [.down, .ahead] ++ (if row = 0 then [.up] else [.slantBack]))

section

variable {width height : Nat} (several : 3 ≤ width) (tall : 2 ≤ height)

theorem gluedEdges_sphereCell {row column : Nat} (inRows : row < height)
    (inColumns : column < width) :
    gluedEdges (gridSpot (spherePole height) width) (sphereCell width height row column) =
      (sphereCourses height row).map fun course =>
        (sphereSurface width height several tall).edge ⟨row, column, course⟩ := by
  let surface := sphereSurface width height several tall
  have here (row : Nat) : gridSpot (spherePole height) width (gridPlace width row column) =
      surface.spot row column := gridSpot_gridPlace surface inColumns
  have ahead (row : Nat) : gridSpot (spherePole height) width (gridPlace width row (column + 1)) =
      surface.spot row (surface.next column) := gridSpot_gridPlace_succ surface inColumns
  -- The columns of a pole are one spot, which is that of the cell and that of the next one.
  have first : surface.spot 0 (surface.next column) = surface.spot 0 column := rfl
  have last : surface.spot height (surface.next column) = surface.spot height column := by
    simp [Revolution.spot, surface, sphereSurface, spherePole]
  have falls : surface.falling = true := rfl
  change _ = (sphereCourses height row).map fun course => surface.edge ⟨row, column, course⟩
  by_cases start : row = 0
  · have inner : ¬ 0 + 1 = height := by omega
    subst start
    simp [sphereCell, sphereCourses, gluedEdges, Face.edges, Revolution.edge, here, ahead, inner,
      first]
  · by_cases stop : row + 1 = height
    · simp [sphereCell, sphereCourses, gluedEdges, Face.edges, Revolution.edge, here, ahead, start,
        stop, last]
    · simp [sphereCell, sphereCourses, gluedEdges, Face.edges, Revolution.edge, here, ahead, start,
        stop, falls]

theorem sphereCourses_perm {row : Nat} (inRows : row < height) :
    (sphereCourses height row).Perm ((sphereSurface width height several tall).courses row) := by
  let surface := sphereSurface width height several tall
  by_cases start : row = 0
  · have pole : surface.pole row = true := by
      simp [surface, sphereSurface, spherePole, start]
    have inner : ¬ 0 + 1 = height := by omega
    rw [Revolution.courses_of_pole pole, start]
    simp only [sphereCourses, inner, if_true, if_false]
    decide
  · by_cases stop : row + 1 = height
    · have pole : surface.pole (row + 1) = true := by
        simp [surface, sphereSurface, spherePole, stop]
      rw [Revolution.courses_before_pole pole]
      simp only [sphereCourses, start, stop, if_true, if_false]
      decide
    · have rows : surface.pole row = false ∧ surface.pole (row + 1) = false := by
        simp [surface, sphereSurface, spherePole, start, stop]
        omega
      rw [Revolution.courses_of_rows rows.1 rows.2]
      simp only [sphereCourses, start, stop, if_false]
      decide

theorem gluedEdges_sphereFaces :
    (gluedEdges (gridSpot (spherePole height) width) (sphereFaces width height)).Perm
      (sphereSurface width height several tall).edges :=
  (sphereSurface width height several tall).gluedEdges_grid
    (fun _ inRows _ inColumns => gluedEdges_sphereCell several tall inRows inColumns)
    fun _ inRows => sphereCourses_perm several tall inRows

end

/-! ## Tubes -/

/-- Without poles, with cells that are cut from each spot to the one behind in the next ring. -/
def tubeSurface (count radial : Nat) (several : 3 ≤ radial) : Revolution where
  width := radial
  height := count
  pole _ := false
  falling := false
  several := several
  apart _ pole := absurd pole Bool.false_ne_true

section

variable {count radial : Nat} (several : 3 ≤ radial)

theorem gluedEdges_tubeCell {ring column : Nat} (inColumns : column < radial) :
    gluedEdges (gridSpot (fun _ => false) radial) (tubeCell radial ring column) =
      [Course.down, .slantBack, .back, .ahead, .up, .slant].map fun course =>
        (tubeSurface count radial several).edge ⟨ring, column, course⟩ := by
  let surface := tubeSurface count radial several
  have here (row : Nat) : gridSpot (fun _ => false) radial (gridPlace radial row column) =
      surface.spot row column := gridSpot_gridPlace surface inColumns
  have ahead (row : Nat) : gridSpot (fun _ => false) radial (gridPlace radial row (column + 1)) =
      surface.spot row (surface.next column) := gridSpot_gridPlace_succ surface inColumns
  have rises : surface.falling = false := rfl
  change _ = List.map (fun course => surface.edge ⟨ring, column, course⟩) _
  simp [tubeCell, tubePlace_eq, gluedEdges, Face.edges, Revolution.edge, here, ahead, rises]

theorem gluedEdges_tubeFaces :
    (gluedEdges (gridSpot (fun _ => false) radial) (tubeFaces count radial)).Perm
      (tubeSurface count radial several).edges := by
  refine (tubeSurface count radial several).gluedEdges_grid
    (fun _ _ _ inColumns => gluedEdges_tubeCell several inColumns) fun ring _ => ?_
  rw [Revolution.courses_of_rows rfl rfl]
  decide

end

/-- Edges of a tube with `count` bands between rings of `radial` spots. Only those within the first
and the last ring are in one direction only, and these lead once around. -/
structure OpenTube (count radial : Nat) (edges : List ((Nat × Nat) × (Nat × Nat))) : Prop where
  once : ∀ edge ∈ edges, edges.count edge = 1
  reversed : ∀ edge ∈ edges, edges.count edge.swap =
    if edge.1.1 = edge.2.1 ∧ (edge.1.1 = 0 ∨ edge.1.1 = count) then 0 else 1
  first : ∀ column other, ((0, column), (0, other)) ∈ edges ↔
    other < radial ∧ column = (other + 1) % radial
  last : ∀ column other, ((count, column), (count, other)) ∈ edges ↔
    column < radial ∧ other = (column + 1) % radial

theorem openTube_tubeFaces {count radial : Nat} (long : 1 ≤ count) (several : 3 ≤ radial) :
    OpenTube count radial
      (gluedEdges (gridSpot (fun _ => false) radial) (tubeFaces count radial)) := by
  have perm : (gluedEdges _ (tubeFaces count radial)).Perm _ := gluedEdges_tubeFaces several
  constructor
  · intro edge member
    rw [perm.count_eq]
    exact (Revolution.count_edges (perm.mem_iff.mp member)).1
  · intro edge member
    rw [perm.count_eq]
    exact (Revolution.count_edges (perm.mem_iff.mp member)).2
  · intro column other
    rw [perm.mem_iff, Revolution.mem_edges_within]
    simp [tubeSurface, Revolution.next]
    omega
  · intro column other
    rw [perm.mem_iff, Revolution.mem_edges_within]
    simp [tubeSurface, Revolution.next]
    omega

section

variable [Scalar α]

/-- However many segments they are asked for, spheres have no boundary once their seams and their
poles are glued together, and no face of them vanishes; tubes are left with the two rings at their
ends. -/
theorem seams_close :
    (∀ (radius : α) (widthSegments heightSegments : Int),
      let solid := sphere radius widthSegments heightSegments
      let spot := gridSpot (spherePole (segments 2 heightSegments)) (segments 3 widthSegments)
      Closed (gluedEdges spot solid.faces) ∧
        ∀ face ∈ solid.faces, (face.vertices.map spot).Nodup) ∧
    ∀ (curve : Curve α) (tubular : Int) (radius : α) (radialSegments : Int) (solid : Solid α),
      tube curve tubular radius radialSegments = .ok solid →
      OpenTube (segments 1 tubular) (segments 3 radialSegments)
        (gluedEdges (gridSpot (fun _ => false) (segments 3 radialSegments)) solid.faces) := by
  constructor
  · intro radius widthSegments heightSegments solid spot
    have several := le_segments 3 widthSegments
    have tall := le_segments 2 heightSegments
    have perm := gluedEdges_sphereFaces several tall
    have closed := (sphereSurface _ _ several tall).closed_edges
      (by simp [sphereSurface, spherePole]) (by simp [sphereSurface, spherePole])
    exact ⟨closed.perm perm.symm, fun face => nodup_spots fun edge member =>
      Revolution.ends_ne (perm.mem_iff.mp member)⟩
  · intro curve tubular radius radialSegments solid made
    rcases Fallible.bind_eq_ok_iff.mp made with ⟨centers, _, made⟩
    rcases Fallible.bind_eq_ok_iff.mp made with ⟨tangents, _, made⟩
    cases made
    exact openTube_tubeFaces (le_segments 1 tubular) (le_segments 3 radialSegments)

end

/-- A sphere of three rows with four cells each, two of them at the poles, and a tube with five
sides along a straight line. -/
theorem seams_close_of_straight :
    let ball : Solid ℝ := sphere 2 4 3
    (ball.faces.length = 16 ∧ Closed (gluedEdges (gridSpot (spherePole 3) 4) ball.faces) ∧
      ∀ face ∈ ball.faces, (face.vertices.map (gridSpot (spherePole 3) 4)).Nodup) ∧
    ∃ curve solid, Curve.ofPoints #[⟨0, 0, 0⟩, ⟨0, 0, 1⟩] (1 / 2 : ℝ) = .ok curve ∧
      tube curve 2 1 5 = .ok solid ∧ solid.faces.length = 20 ∧
      OpenTube 2 5 (gluedEdges (gridSpot (fun _ => false) 5) solid.faces) := by
  intro ball
  have cells : ball.faces.length = 16 := length_sphereFaces 4 3
  let spline : Spline ℝ := ⟨#[⟨0, 0, 0⟩, ⟨0, 0, 1⟩], 1 / 2, Nat.le_refl 2⟩
  rcases exists_tube (Curve.ofSpline spline) 2 1 5 with ⟨_, _, solid, isTube⟩
  have sides : solid.faces.length = 20 := (consists_tube isTube.made).length_faces
  exact ⟨⟨cells, seams_close.1 2 4 3⟩, _, solid, rfl, isTube.made, sides,
    seams_close.2 _ 2 1 5 solid isTube.made⟩

end Solid

end GrowthGrammar
