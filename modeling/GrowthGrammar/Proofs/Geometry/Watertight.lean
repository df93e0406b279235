import GrowthGrammar.Proofs.Geometry.Revolution

/-!
# Lines and cones are watertight

A tapered cylinder is a surface of revolution with three bands: one around its side, and one for
each cap, between its rim and the pole in the middle.
-/

namespace GrowthGrammar

namespace Solid

/-- The rows of a cylinder are the top's centre and rim and the bottom's rim and centre. -/
def cylinderSurface (count : Nat) (several : 3 ≤ count) : Revolution where
  width := count
  height := 3
  pole row := row = 0 || row = 3
  falling := false
  several := several
  apart row pole := by
    simp at pole ⊢
    omega

def cylinderSpot (count place : Nat) : Nat × Nat :=
  if place < count then (2, place)
  else if place < 2 * count then (1, place - count)
  else if place = 2 * count then (3, 0)
  else (0, 0)

theorem cylinderSpot_bottom {count column : Nat} (inside : column < count) :
    cylinderSpot count column = (2, column) := by
  rw [cylinderSpot, if_pos inside]

theorem cylinderSpot_top {count column : Nat} (inside : column < count) :
    cylinderSpot count (count + column) = (1, column) := by
  rw [cylinderSpot, if_neg (by omega), if_pos (by omega), Nat.add_sub_cancel_left]

theorem cylinderSpot_bottom_centre (count : Nat) : cylinderSpot count (2 * count) = (3, 0) := by
  rw [cylinderSpot, if_neg (by omega), if_neg (by omega), if_pos rfl]

theorem cylinderSpot_top_centre (count : Nat) : cylinderSpot count (2 * count + 1) = (0, 0) := by
  rw [cylinderSpot, if_neg (by omega), if_neg (by omega), if_neg (by omega)]

/-- The vertex of a cylinder at a spot. -/
def cylinderPlace (count : Nat) : Nat × Nat → Nat
  | (0, _) => 2 * count + 1
  | (1, column) => count + column
  | (2, column) => column
  | (_, _) => 2 * count

theorem cylinderPlace_spot {count place : Nat} (inside : place < 2 * count + 2) :
    cylinderPlace count (cylinderSpot count place) = place := by
  unfold cylinderSpot
  split
  · rfl
  · split
    · simp only [cylinderPlace]
      omega
    · split <;> simp only [cylinderPlace] <;> omega

section

variable {count : Nat} (several : 3 ≤ count)

theorem gluedEdges_sideFaces : gluedEdges (cylinderSpot count) (sideFaces count) =
    (cylinderSurface count several).band 1 [.ahead, .up, .slant] ++
      (cylinderSurface count several).band 1 [.slantBack, .back, .down] := by
  have around {column : Nat} : (column + 1) % count < count := Nat.mod_lt _ (by omega)
  rw [sideFaces, gluedEdges, List.flatMap_append]
  congr 1
  all_goals
    refine (cylinderSurface count several).gluedEdges_map_range fun column inside => ?_
    have inside : column < count := inside
    simp [Face.edges, Revolution.edge, Revolution.spot, Revolution.next, cylinderSurface,
      cylinderSpot_top, cylinderSpot_bottom, inside, around]

theorem gluedEdges_bottomFaces : gluedEdges (cylinderSpot count) (bottomFaces count) =
    (cylinderSurface count several).band 2 [.up, .back, .down] := by
  refine (cylinderSurface count several).gluedEdges_map_range fun column inside => ?_
  have inside : column < count := inside
  have around : (column + 1) % count < count := Nat.mod_lt _ (by omega)
  simp [Face.edges, Revolution.edge, Revolution.spot, Revolution.next, cylinderSurface,
    cylinderSpot_bottom, cylinderSpot_bottom_centre, inside, around]

theorem gluedEdges_topFaces : gluedEdges (cylinderSpot count) (topFaces count) =
    (cylinderSurface count several).band 0 [.down, .ahead, .up] := by
  refine (cylinderSurface count several).gluedEdges_map_range fun column inside => ?_
  have inside : column < count := inside
  have around : (column + 1) % count < count := Nat.mod_lt _ (by omega)
  simp [Face.edges, Revolution.edge, Revolution.spot, Revolution.next, cylinderSurface,
    cylinderSpot_top, cylinderSpot_top_centre, inside, around]

theorem gluedEdges_cylinderFaces :
    (gluedEdges (cylinderSpot count) (cylinderFaces count)).Perm
      (cylinderSurface count several).edges := by
  let surface := cylinderSurface count several
  have top : (surface.band 0 [.down, .ahead, .up]).Perm (surface.band 0 (surface.courses 0)) := by
    rw [surface.courses_of_pole rfl]
    exact surface.band_perm 0 (by decide)
  have side : (surface.band 1 [.ahead, .up, .slant] ++
      surface.band 1 [.slantBack, .back, .down]).Perm (surface.band 1 (surface.courses 1)) := by
    rw [surface.courses_of_rows rfl rfl]
    exact (surface.band_append_perm 1 _ _).trans (surface.band_perm 1 (by decide))
  have bottom : (surface.band 2 [.up, .back, .down]).Perm
      (surface.band 2 (surface.courses 2)) := by
    rw [surface.courses_before_pole rfl]
    exact surface.band_perm 2 (by decide)
  have whole : surface.edges = surface.band 0 (surface.courses 0) ++
      (surface.band 1 (surface.courses 1) ++ surface.band 2 (surface.courses 2)) := by
    simp [Revolution.edges, surface, cylinderSurface, List.range_succ]
  have parts : gluedEdges (cylinderSpot count) (cylinderFaces count) =
      gluedEdges (cylinderSpot count) (sideFaces count) ++
        gluedEdges (cylinderSpot count) (bottomFaces count) ++
        gluedEdges (cylinderSpot count) (topFaces count) := by
    simp only [gluedEdges, cylinderFaces, List.flatMap_append]
  rw [parts, whole, gluedEdges_sideFaces several, gluedEdges_bottomFaces several,
    gluedEdges_topFaces several]
  exact ((side.append bottom).append top).trans List.perm_append_comm

include several

theorem closed_cylinderFaces : Closed (edgesOf (cylinderFaces count)) := by
  have triangles : ∀ face ∈ cylinderFaces count, face.IsTriangle (2 * count + 2) :=
    fun face => isTriangle_of_mem_cylinderFaces (by omega)
  refine closed_of_gluedEdges triangles (fun first firstInside second secondInside equal => ?_)
    (((cylinderSurface count several).closed_edges rfl rfl).perm
      (gluedEdges_cylinderFaces several).symm)
  rw [← cylinderPlace_spot firstInside, equal, cylinderPlace_spot secondInside]

theorem exists_mem_cylinderFaces {place : Nat} (inside : place < 2 * count + 2) :
    ∃ face ∈ cylinderFaces count, place ∈ face.vertices := by
  simp only [cylinderFaces, sideFaces, bottomFaces, topFaces, List.mem_append, List.mem_map,
    List.mem_range]
  rcases Nat.lt_or_ge place count with bottom | notBottom
  · exact ⟨_, .inl (.inl (.inl ⟨place, bottom, rfl⟩)), by simp [Face.vertices]⟩
  rcases Nat.lt_or_ge place (2 * count) with top | notTop
  · have around : count + (place - count) = place := Nat.add_sub_cancel' notBottom
    exact ⟨_, .inl (.inl (.inr ⟨place - count, by omega, rfl⟩)), by simp [Face.vertices, around]⟩
  rcases Nat.eq_or_lt_of_le notTop with rfl | last
  · exact ⟨_, .inl (.inr ⟨0, by omega, rfl⟩), by simp [Face.vertices]⟩
  · have last : place = 2 * count + 1 := by omega
    exact ⟨_, .inr ⟨0, by omega, rfl⟩, by simp [Face.vertices, last]⟩

end

theorem watertight_cylinder [Scalar α] (bottomRadius topRadius bottom top : α)
    (radialSegments : Int) :
    (cylinder bottomRadius topRadius bottom top radialSegments).Watertight := by
  have several := le_segments 3 radialSegments
  have consists := consists_cylinder bottomRadius topRadius bottom top radialSegments
  rcases consists with ⟨vertices, faces, triangles⟩
  have closed := closed_cylinderFaces several
  have edges := length_undirected closed fun edge member =>
    (ends_of_mem_edgesOf triangles member).2.2
  rw [length_edgesOf, length_cylinderFaces] at edges
  constructor
  · rwa [vertices]
  · intro place inside
    rw [vertices] at inside
    exact exists_mem_cylinderFaces several inside
  · exact closed
  · rw [vertices, faces]
    change _ - ((undirected (edgesOf (cylinderFaces _))).length : Int) + _ = _
    omega

/-- Whatever their measures and however many sides they are asked for, tapered lines and cones have
a surface without a gap. -/
theorem lines_and_cones_watertight [Scalar α] (length startRadius endRadius radius height : α)
    (radialSegments : Int) :
    (segment length startRadius endRadius radialSegments).Watertight ∧
      (cone radius height radialSegments).Watertight :=
  ⟨watertight_cylinder startRadius endRadius Scalar.zero length radialSegments,
    watertight_cylinder radius Scalar.zero (-height / Scalar.two) (height / Scalar.two)
      radialSegments⟩

end Solid

end GrowthGrammar
