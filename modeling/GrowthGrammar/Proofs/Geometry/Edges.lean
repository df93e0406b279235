import GrowthGrammar.Proofs.Geometry.Solids
import Mathlib.Data.Sym.Sym2

/-!
# Edges of triangle meshes

A face has three directed edges. A surface without a boundary has with each directed edge the one in
the other direction, in one face each. Vertices that are at the same spot may be glued together.
-/

namespace GrowthGrammar

/-- The directed edges around a face. -/
def Face.edges (face : Face) : List (Nat × Nat) :=
  [(face.a, face.b), (face.b, face.c), (face.c, face.a)]

/-- The directed edges of faces between the spots that their vertices are glued to. -/
def gluedEdges (spot : Nat → β) (faces : List Face) : List (β × β) :=
  faces.flatMap fun face => face.edges.map (Prod.map spot spot)

/-- The directed edges of faces between their vertices. -/
def edgesOf (faces : List Face) : List (Nat × Nat) :=
  faces.flatMap Face.edges

/-- Every directed edge is in one face, and so is its reverse. -/
def Closed [DecidableEq β] (edges : List (β × β)) : Prop :=
  ∀ edge ∈ edges, edges.count edge = 1 ∧ edges.count edge.swap = 1

/-- The edges without their directions. -/
def undirected [DecidableEq β] (edges : List (β × β)) : List (Sym2 β) :=
  (edges.map fun edge => s(edge.1, edge.2)).dedup

theorem gluedEdges_eq_map (spot : Nat → β) (faces : List Face) :
    gluedEdges spot faces = (edgesOf faces).map (Prod.map spot spot) := by
  rw [gluedEdges, edgesOf, List.map_flatMap]

/-- A face whose edges lead from spots to others does not vanish. -/
theorem nodup_spots {spot : Nat → β} {faces : List Face}
    (apart : ∀ edge ∈ gluedEdges spot faces, edge.1 ≠ edge.2) {face : Face}
    (member : face ∈ faces) : (face.vertices.map spot).Nodup := by
  have around {a b : Nat} (inFace : (a, b) ∈ face.edges) : spot a ≠ spot b :=
    apart (spot a, spot b)
      (List.mem_flatMap.mpr ⟨face, member, List.mem_map.mpr ⟨(a, b), inFace, rfl⟩⟩)
  have ab : spot face.a ≠ spot face.b := around (by simp [Face.edges])
  have bc : spot face.b ≠ spot face.c := around (by simp [Face.edges])
  have ca : spot face.c ≠ spot face.a := around (by simp [Face.edges])
  simp [Face.vertices, ab, bc, ca.symm]

section

variable [DecidableEq β] {edges : List (β × β)}

theorem closed_iff : Closed edges ↔ edges.Nodup ∧ ∀ edge ∈ edges, edge.swap ∈ edges := by
  constructor
  · intro closed
    refine ⟨List.nodup_iff_count_eq_one.mpr fun edge member => (closed edge member).1,
      fun edge member => ?_⟩
    apply List.count_pos_iff.mp
    rw [(closed edge member).2]
    exact Nat.one_pos
  · rintro ⟨nodup, reversed⟩ edge member
    exact ⟨List.count_eq_one_of_mem nodup member,
      List.count_eq_one_of_mem nodup (reversed edge member)⟩

theorem Closed.perm {others : List (β × β)} (closed : Closed edges) (perm : edges.Perm others) :
    Closed others := by
  intro edge member
  rw [← perm.count_eq, ← perm.count_eq]
  exact closed edge (perm.mem_iff.mpr member)

end

theorem mem_edgesOf {faces : List Face} {edge : Nat × Nat} :
    edge ∈ edgesOf faces ↔ ∃ face ∈ faces, edge ∈ face.edges :=
  List.mem_flatMap

theorem length_edgesOf (faces : List Face) : (edgesOf faces).length = 3 * faces.length := by
  have each (face : Face) : face.edges.length = 3 := rfl
  simp [edgesOf, List.length_flatMap, each, Nat.mul_comm]

/-- The ends of an edge are different corners of a triangle. -/
theorem ends_of_mem_edgesOf {faces : List Face} {count : Nat}
    (triangles : ∀ face ∈ faces, face.IsTriangle count) {edge : Nat × Nat}
    (member : edge ∈ edgesOf faces) : edge.1 < count ∧ edge.2 < count ∧ edge.1 ≠ edge.2 := by
  rcases mem_edgesOf.mp member with ⟨face, inFaces, member⟩
  have triangle := Face.isTriangle_iff.mp (triangles face inFaces)
  simp only [Face.edges, List.mem_cons, List.not_mem_nil, or_false] at member
  rcases member with rfl | rfl | rfl
  all_goals
    dsimp only
    omega

/-- A surface is closed that is closed when its vertices are glued to different spots. -/
theorem closed_of_gluedEdges [DecidableEq β] {spot : Nat → β} {faces : List Face} {count : Nat}
    (triangles : ∀ face ∈ faces, face.IsTriangle count)
    (apart : ∀ first < count, ∀ second < count, spot first = spot second → first = second)
    (closed : Closed (gluedEdges spot faces)) : Closed (edgesOf faces) := by
  rw [gluedEdges_eq_map] at closed
  rcases closed_iff.mp closed with ⟨nodup, reversed⟩
  refine closed_iff.mpr ⟨nodup.of_map, fun edge member => ?_⟩
  rcases List.mem_map.mp (reversed _ (List.mem_map_of_mem member)) with ⟨other, found, equal⟩
  rcases ends_of_mem_edgesOf triangles member with ⟨first, second, _⟩
  rcases ends_of_mem_edgesOf triangles found with ⟨otherFirst, otherSecond, _⟩
  have swapped : other = edge.swap :=
    Prod.ext (apart _ otherFirst _ second (congrArg Prod.fst equal))
      (apart _ otherSecond _ first (congrArg Prod.snd equal))
  exact swapped ▸ found

section

variable {edges : List (Nat × Nat)} (closed : Closed edges)
  (apart : ∀ edge ∈ edges, edge.1 ≠ edge.2)

include closed apart

/-- Of the two directions of an edge one goes up to the later place. -/
theorem undirected_perm : (undirected edges).Perm
    ((edges.filter fun edge => edge.1 < edge.2).map fun edge => s(edge.1, edge.2)) := by
  rcases closed_iff.mp closed with ⟨nodup, reversed⟩
  refine (List.perm_ext_iff_of_nodup (List.nodup_dedup _) ?_).mpr fun side => ?_
  · refine List.Nodup.map_on ?_ (nodup.filter _)
    rintro ⟨a, b⟩ first ⟨c, d⟩ second equal
    have ab : a < b := by simpa using List.of_mem_filter first
    have cd : c < d := by simpa using List.of_mem_filter second
    rcases Sym2.eq_iff.mp equal with ⟨rfl, rfl⟩ | ⟨rfl, rfl⟩
    · rfl
    · exact absurd ab (Nat.lt_asymm cd)
  · rw [List.mem_dedup]
    constructor
    · intro member
      rcases List.mem_map.mp member with ⟨edge, found, rfl⟩
      rcases Nat.lt_or_gt_of_ne (apart edge found) with up | down
      · exact List.mem_map.mpr ⟨edge, List.mem_filter.mpr ⟨found, by simpa using up⟩, rfl⟩
      · exact List.mem_map.mpr ⟨edge.swap,
          List.mem_filter.mpr ⟨reversed edge found, by simpa using down⟩, Sym2.eq_swap⟩
    · intro member
      rcases List.mem_map.mp member with ⟨edge, found, rfl⟩
      exact List.mem_map_of_mem (List.mem_of_mem_filter found)

theorem descending_perm : (edges.filter fun edge => !decide (edge.1 < edge.2)).Perm
    ((edges.filter fun edge => edge.1 < edge.2).map Prod.swap) := by
  rcases closed_iff.mp closed with ⟨nodup, reversed⟩
  refine (List.perm_ext_iff_of_nodup (nodup.filter _)
    ((nodup.filter _).map Prod.swap_injective)).mpr fun edge => ?_
  simp only [List.mem_filter, List.mem_map]
  constructor
  · rintro ⟨member, down⟩
    have different := apart edge member
    refine ⟨edge.swap, ⟨reversed edge member, ?_⟩, edge.swap_swap⟩
    simp at down ⊢
    omega
  · rintro ⟨other, ⟨member, up⟩, rfl⟩
    refine ⟨reversed other member, ?_⟩
    simp at up ⊢
    omega

/-- Two directed edges make one without a direction. -/
theorem length_undirected : 2 * (undirected edges).length = edges.length := by
  have whole := List.filter_append_perm (fun edge => decide (edge.1 < edge.2)) edges
  rw [← whole.length_eq, List.length_append, (undirected_perm closed apart).length_eq,
    (descending_perm closed apart).length_eq, List.length_map, List.length_map, Nat.two_mul]

end

/-- All vertices are corners of triangles, and every directed edge is in one face, as is its
reverse. Vertices, undirected edges, and faces are as many as those of a sphere. -/
structure Solid.Watertight (solid : Solid α) : Prop where
  triangles : ∀ face ∈ solid.faces, face.IsTriangle solid.vertices.length
  used : ∀ place < solid.vertices.length, ∃ face ∈ solid.faces, place ∈ face.vertices
  closed : Closed (edgesOf solid.faces)
  characteristic : (solid.vertices.length : Int) - (undirected (edgesOf solid.faces)).length +
    solid.faces.length = 2

end GrowthGrammar
