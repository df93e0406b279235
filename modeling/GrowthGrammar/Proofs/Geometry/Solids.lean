import GrowthGrammar.Curve.Tube
import GrowthGrammar.Proofs.Fallible
import Mathlib.Algebra.BigOperators.Ring.List
import Mathlib.Data.Nat.Cast.Basic

/-!
# What solids consist of

Every solid has as many vertices and faces as its numbers of segments say, and every face of it is a
triangle between three of its vertices. Neither depends on how large the solid is, nor on whether
its measures are numbers at all.
-/

namespace GrowthGrammar

open Fallible

/-- A triangle with three different corners among the first `count` places. -/
def Face.IsTriangle (face : Face) (count : Nat) : Prop :=
  face.vertices.Nodup ∧ ∀ place ∈ face.vertices, place < count

instance (face : Face) (count : Nat) : Decidable (face.IsTriangle count) :=
  inferInstanceAs (Decidable (_ ∧ _))

theorem Face.isTriangle_iff {face : Face} {count : Nat} :
    face.IsTriangle count ↔
      (face.a ≠ face.b ∧ face.a ≠ face.c ∧ face.b ≠ face.c) ∧
        face.a < count ∧ face.b < count ∧ face.c < count := by
  simp [IsTriangle, vertices, and_assoc]

namespace Solid

/-- The solid has `vertices` vertices and `faces` faces, each of them a triangle between three of
the vertices. -/
structure Consists (solid : Solid α) (vertices faces : Nat) : Prop where
  length_vertices : solid.vertices.length = vertices
  length_faces : solid.faces.length = faces
  triangles : ∀ face ∈ solid.faces, face.IsTriangle vertices

/-! ## Numbers of segments -/

theorem le_segments (least : Nat) (count : Int) : least ≤ segments least count :=
  Nat.le_max_left _ _

theorem segments_le {least greatest : Nat} {count : Int} (small : least ≤ greatest)
    (bounded : count ≤ greatest) : segments least count ≤ greatest := by
  unfold segments
  omega

theorem segments_of_le {least count : Nat} (enough : least ≤ count) :
    segments least count = count := by
  unfold segments
  omega

/-! ## Grids -/

section

variable {width height row column : Nat}

theorem gridPlace_succ_column :
    gridPlace width row (column + 1) = gridPlace width row column + 1 := rfl

theorem gridPlace_succ_row :
    gridPlace width (row + 1) column = gridPlace width row column + (width + 1) := by
  rw [gridPlace, gridPlace, Nat.succ_mul, Nat.add_right_comm]

theorem gridPlace_lt {rows : Nat} (inRow : row < rows) (inColumn : column ≤ width) :
    gridPlace width row column < rows * (width + 1) :=
  calc gridPlace width row column
    _ < row * (width + 1) + (width + 1) := Nat.add_lt_add_left (Nat.lt_succ_of_le inColumn) _
    _ = (row + 1) * (width + 1) := (Nat.succ_mul row (width + 1)).symm
    _ ≤ rows * (width + 1) := Nat.mul_le_mul_right _ inRow

/-- The corners of a cell are the place of one of them, the place next to it, and the two places a
row later. -/
theorem cell_corners (inRow : row < height) (inColumn : column < width) :
    gridPlace width row (column + 1) = gridPlace width row column + 1 ∧
      gridPlace width (row + 1) column = gridPlace width row column + (width + 1) ∧
      gridPlace width (row + 1) (column + 1) = gridPlace width row column + (width + 2) ∧
      gridPlace width row column + (width + 2) < (height + 1) * (width + 1) := by
  have last : gridPlace width (row + 1) (column + 1) = gridPlace width row column + (width + 2) := by
    rw [gridPlace_succ_row, gridPlace_succ_column]
    omega
  refine ⟨gridPlace_succ_column, gridPlace_succ_row, last, ?_⟩
  rw [← last]
  exact gridPlace_lt (Nat.succ_lt_succ inRow) inColumn

theorem isTriangle_of_mem_sphereCell {face : Face} (inRow : row < height)
    (inColumn : column < width) (member : face ∈ sphereCell width height row column) :
    face.IsTriangle ((height + 1) * (width + 1)) := by
  rcases cell_corners inRow inColumn with ⟨a_eq, c_eq, d_eq, inside⟩
  rw [Face.isTriangle_iff]
  simp only [sphereCell, a_eq, c_eq, d_eq, List.mem_append] at member
  rcases member with upper | lower
  · split at upper
    · cases upper
    · cases List.mem_singleton.mp upper
      dsimp only
      omega
  · split at lower
    · cases lower
    · cases List.mem_singleton.mp lower
      dsimp only
      omega

theorem tubePlace_eq (radial ring column : Nat) :
    tubePlace radial ring column = gridPlace radial ring column := by
  rw [tubePlace, gridPlace, Nat.mul_comm]

theorem isTriangle_of_mem_tubeCell {count radial ring : Nat} {face : Face} (inRow : ring < count)
    (inColumn : column < radial) (member : face ∈ tubeCell radial ring column) :
    face.IsTriangle ((count + 1) * (radial + 1)) := by
  rcases cell_corners inRow inColumn with ⟨d_eq, b_eq, c_eq, inside⟩
  rw [Face.isTriangle_iff]
  simp only [tubeCell, tubePlace_eq, b_eq, c_eq, d_eq, List.mem_cons, List.not_mem_nil,
    or_false] at member
  rcases member with rfl | rfl
  all_goals
    dsimp only
    omega

end

/-! ## Spheres -/

theorem length_sphereCell (width height row column : Nat) :
    (sphereCell width height row column).length =
      (if row = 0 then 0 else 1) + (if row + 1 = height then 0 else 1) := by
  unfold sphereCell
  rw [List.length_append]
  split <;> split <;> rfl

/-- All rows but the one at the first pole have an upper triangle in each cell. -/
theorem sum_upper (height : Nat) :
    ((List.range height).map fun row => if row = 0 then 0 else 1).sum = height - 1 := by
  cases height with
  | zero => rfl
  | succ height => simp [List.range_succ_eq_map, Function.comp_def]

/-- All rows but the one at the last pole have a lower triangle in each cell. -/
theorem sum_lower (height : Nat) :
    ((List.range height).map fun row => if row + 1 = height then 0 else 1).sum = height - 1 := by
  cases height with
  | zero => rfl
  | succ height =>
      have inner : (List.range height).map (fun row => if row + 1 = height + 1 then 0 else 1) =
          (List.range height).map fun _ => 1 := by
        apply List.map_congr_left
        intro row member
        have below := List.mem_range.mp member
        rw [if_neg (by omega)]
      rw [List.range_succ, List.map_append, inner]
      simp

theorem length_sphereFaces (width height : Nat) :
    (sphereFaces width height).length = 2 * width * (height - 1) := by
  have row_length (row : Nat) :
      ((List.range width).flatMap fun column => sphereCell width height row column).length =
        width * ((if row = 0 then 0 else 1) + if row + 1 = height then 0 else 1) := by
    simp [List.length_flatMap, length_sphereCell]
  calc (sphereFaces width height).length
    _ = width * ((List.range height).map fun row =>
          (if row = 0 then 0 else 1) + if row + 1 = height then 0 else 1).sum := by
        simp only [sphereFaces, List.length_flatMap, row_length, List.sum_map_mul_left]
    _ = width * ((height - 1) + (height - 1)) := by
        rw [List.sum_map_add, sum_upper, sum_lower]
    _ = 2 * width * (height - 1) := by rw [← Nat.two_mul, Nat.mul_left_comm, Nat.mul_assoc]

theorem isTriangle_of_mem_sphereFaces {width height : Nat} {face : Face}
    (member : face ∈ sphereFaces width height) :
    face.IsTriangle ((height + 1) * (width + 1)) := by
  rcases List.mem_flatMap.mp member with ⟨row, inRows, member⟩
  rcases List.mem_flatMap.mp member with ⟨column, inColumns, member⟩
  exact isTriangle_of_mem_sphereCell (List.mem_range.mp inRows) (List.mem_range.mp inColumns) member

/-! ## Cylinders -/

/-- Going around, every place is followed by another one. -/
theorem succ_mod_ne {count place : Nat} (several : 2 ≤ count) (inside : place < count) :
    (place + 1) % count ≠ place := by
  rcases Nat.lt_or_eq_of_le (Nat.succ_le_of_lt inside) with next | around
  · rw [Nat.mod_eq_of_lt next]
    exact Nat.succ_ne_self place
  · have start : (place + 1) % count = 0 := Nat.mod_eq_zero_of_dvd ⟨1, by omega⟩
    omega

theorem isTriangle_of_mem_cylinderFaces {count : Nat} {face : Face} (several : 2 ≤ count)
    (member : face ∈ cylinderFaces count) : face.IsTriangle (2 * count + 2) := by
  rw [Face.isTriangle_iff]
  simp only [cylinderFaces, sideFaces, bottomFaces, topFaces, List.mem_append, List.mem_map,
    List.mem_range] at member
  rcases member with ((⟨i, inside, rfl⟩ | ⟨i, inside, rfl⟩) | ⟨i, inside, rfl⟩) | ⟨i, inside, rfl⟩
  all_goals
    have other := succ_mod_ne several inside
    have below := Nat.mod_lt (i + 1) (Nat.zero_lt_of_lt inside)
    dsimp only
    omega

theorem length_cylinderFaces (count : Nat) : (cylinderFaces count).length = 4 * count := by
  simp [cylinderFaces, sideFaces, bottomFaces, topFaces]
  omega

section

variable [Scalar α]

theorem consists_sphere (radius : α) (widthSegments heightSegments : Int) :
    let width := segments 3 widthSegments
    let height := segments 2 heightSegments
    (sphere radius widthSegments heightSegments).Consists ((width + 1) * (height + 1))
      (2 * width * (height - 1)) where
  length_vertices := by simp [sphere, sphereVertices, List.length_flatMap, Nat.mul_comm]
  length_faces := length_sphereFaces _ _
  triangles := by
    intro face member
    rw [Nat.mul_comm]
    exact isTriangle_of_mem_sphereFaces member

theorem consists_cylinder (bottomRadius topRadius bottom top : α) (radialSegments : Int) :
    let count := segments 3 radialSegments
    (cylinder bottomRadius topRadius bottom top radialSegments).Consists (2 * count + 2)
      (4 * count) where
  length_vertices := by
    simp [cylinder, cylinderVertices, circle]
    omega
  length_faces := length_cylinderFaces _
  triangles := by
    intro face member
    exact isTriangle_of_mem_cylinderFaces
      (Nat.le_trans (by decide) (le_segments 3 radialSegments)) member

theorem consists_box (width height depth : α) : (box width height depth).Consists 8 12 where
  length_vertices := rfl
  length_faces := rfl
  triangles := (by decide : ∀ face ∈ boxFaces, face.IsTriangle 8)

end

end Solid

/-! ## Tubes -/

section

variable [Scalar α]

theorem Curve.length_directionsFrom (previous : Vec3 α) (vectors : List (Vec3 α)) :
    (directionsFrom previous vectors).length = vectors.length := by
  induction vectors generalizing previous with
  | nil => rfl
  | cons vector vectors induction => exact congrArg (· + 1) (induction _)

theorem Curve.length_tangentsAt {curve : Curve α} {fractions : List α} {tangents : List (Vec3 α)}
    (made : curve.tangentsAt fractions = .ok tangents) : tangents.length = fractions.length := by
  rcases map_eq_ok_iff.mp made with ⟨secants, secants_eq, rfl⟩
  rw [directions, length_directionsFrom, (forall₂_of_mapM_eq_ok secants_eq).length_eq]

theorem PathFrame.length_listFrom (frame : PathFrame α) (tangents : List (Vec3 α)) :
    (listFrom frame tangents).length = tangents.length + 1 := by
  induction tangents generalizing frame with
  | nil => rfl
  | cons tangent tangents induction => exact congrArg (· + 1) (induction _)

theorem PathFrame.length_ofTangents (tangents : List (Vec3 α)) :
    (ofTangents tangents).length = tangents.length := by
  cases tangents with
  | nil => rfl
  | cons tangent tangents => exact length_listFrom _ tangents

theorem Solid.length_tubeFaces (count radial : Nat) :
    (tubeFaces count radial).length = 2 * count * radial := by
  have cell_length (ring column : Nat) : (tubeCell radial ring column).length = 2 := rfl
  simp only [tubeFaces, List.length_flatMap, cell_length, List.map_const', List.length_range,
    List.sum_replicate_nat]
  rw [Nat.mul_comm 2, Nat.mul_assoc, Nat.mul_comm 2]

theorem Solid.consists_tube {curve : Curve α} {tubular radialSegments : Int} {radius : α}
    {solid : Solid α} (made : tube curve tubular radius radialSegments = .ok solid) :
    let count := segments 1 tubular
    let radial := segments 3 radialSegments
    solid.Consists ((count + 1) * (radial + 1)) (2 * count * radial) := by
  intro count radial
  rcases bind_eq_ok_iff.mp made with ⟨centers, centers_eq, made⟩
  rcases bind_eq_ok_iff.mp made with ⟨tangents, tangents_eq, made⟩
  cases made
  have rings : centers.length = count + 1 := by
    rw [← (forall₂_of_mapM_eq_ok centers_eq).length_eq, List.length_map, List.length_range]
  have frames : (PathFrame.ofTangents tangents).length = count + 1 := by
    rw [PathFrame.length_ofTangents, Curve.length_tangentsAt tangents_eq, List.length_map,
      List.length_range]
  refine ⟨?_, Solid.length_tubeFaces _ _, ?_⟩
  · simp [List.length_flatMap, ring, rings, frames, radial]
  · intro face member
    rcases List.mem_flatMap.mp member with ⟨ring, inRings, member⟩
    rcases List.mem_flatMap.mp member with ⟨column, inColumns, member⟩
    exact isTriangle_of_mem_tubeCell (List.mem_range.mp inRings) (List.mem_range.mp inColumns)
      member

end

/-- The tube of a stroke has five segments for each point, and eight sides. -/
theorem Stroke.consists_tube? {stroke : Stroke} {radius tension : Float} {solid : Solid Float}
    (made : stroke.tube? radius tension = .ok (some solid)) :
    2 ≤ stroke.points.size ∧
      solid.Consists (9 * (5 * stroke.points.size + 1)) (80 * stroke.points.size) := by
  unfold tube? at made
  split at made
  · cases made
  · next many =>
      rcases bind_eq_ok_iff.mp made with ⟨curve, _, made⟩
      rcases bind_eq_ok_iff.mp made with ⟨tube, tube_eq, made⟩
      cases made
      refine ⟨by omega, ?_⟩
      have consists := Solid.consists_tube tube_eq
      have count : Solid.segments 1 (stroke.points.size * segmentsPerPoint : Nat) =
          5 * stroke.points.size := by
        rw [Solid.segments_of_le (by simp [segmentsPerPoint]; omega), Nat.mul_comm]
        rfl
      have radial : Solid.segments 3 radialSegments = 8 := rfl
      rw [count, radial] at consists
      have vertices : (5 * stroke.points.size + 1) * (8 + 1) =
          9 * (5 * stroke.points.size + 1) :=
        Nat.mul_comm _ _
      have faces : 2 * (5 * stroke.points.size) * 8 = 80 * stroke.points.size := by omega
      exact vertices ▸ faces ▸ consists

end GrowthGrammar
