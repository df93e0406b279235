import GrowthGrammar.Proofs.Geometry.Edges
import GrowthGrammar.Proofs.Repetition

/-!
# Surfaces of revolution

Spots stand in rows around an axis. Between each row and the next there is a band of cells, which
are cut into triangles. A row may have shrunk to a pole; the cells at it are triangles already. The
directed edges of such a surface are told apart, and paired with their reverses, by where they are.
-/

namespace GrowthGrammar

/-- The way that a directed edge takes along a cell: from the row of the cell to the next one or
back, and around the axis or back. The slanting edges cut the cell. -/
inductive Course
  | down
  | up
  | ahead
  | back
  | slant
  | slantBack
  deriving DecidableEq

/-- A directed edge, as one of a cell. -/
structure CellEdge where
  row : Nat
  column : Nat
  course : Course

/-- The rows that an edge leads from and to. -/
def CellEdge.rows : CellEdge → Nat × Nat
  | ⟨row, _, .down⟩ => (row, row + 1)
  | ⟨row, _, .up⟩ => (row + 1, row)
  | ⟨row, _, .ahead⟩ => (row + 1, row + 1)
  | ⟨row, _, .back⟩ => (row, row)
  | ⟨row, _, .slant⟩ => (row, row + 1)
  | ⟨row, _, .slantBack⟩ => (row + 1, row)

/-- Rows of `width` spots with `height` bands between them. No two rows that are poles follow one
another. A cut that falls leads from a spot to the spot ahead in the next row. -/
structure Revolution where
  width : Nat
  height : Nat
  pole : Nat → Bool
  falling : Bool
  several : 3 ≤ width
  apart : ∀ row, pole row = true → pole (row + 1) = false

namespace Revolution

variable (surface : Revolution)

def next (column : Nat) : Nat :=
  (column + 1) % surface.width

def previous (column : Nat) : Nat :=
  if column = 0 then surface.width - 1 else column - 1

def spot (row column : Nat) : Nat × Nat :=
  (row, if surface.pole row then 0 else column)

/-- Where an edge leads from and to. -/
def edge : CellEdge → (Nat × Nat) × (Nat × Nat)
  | ⟨row, column, .down⟩ => (surface.spot row column, surface.spot (row + 1) column)
  | ⟨row, column, .up⟩ =>
      (surface.spot (row + 1) (surface.next column), surface.spot row (surface.next column))
  | ⟨row, column, .ahead⟩ =>
      (surface.spot (row + 1) column, surface.spot (row + 1) (surface.next column))
  | ⟨row, column, .back⟩ => (surface.spot row (surface.next column), surface.spot row column)
  | ⟨row, column, .slant⟩ =>
      if surface.falling then
        (surface.spot row column, surface.spot (row + 1) (surface.next column))
      else (surface.spot row (surface.next column), surface.spot (row + 1) column)
  | ⟨row, column, .slantBack⟩ =>
      if surface.falling then
        (surface.spot (row + 1) (surface.next column), surface.spot row column)
      else (surface.spot (row + 1) column, surface.spot row (surface.next column))

/-- The cells of a band have no edges along a pole, and at a pole they are not cut. -/
def takes (row : Nat) : Course → Bool
  | .down | .up => true
  | .ahead => !surface.pole (row + 1)
  | .back => !surface.pole row
  | .slant | .slantBack => !surface.pole row && !surface.pole (row + 1)

def courses (row : Nat) : List Course :=
  [.down, .up, .ahead, .back, .slant, .slantBack].filter (surface.takes row)

/-- The edges of all cells of a band that take some courses. -/
def band (row : Nat) (courses : List Course) : List ((Nat × Nat) × (Nat × Nat)) :=
  (List.range surface.width).flatMap fun column =>
    courses.map fun course => surface.edge ⟨row, column, course⟩

def edges : List ((Nat × Nat) × (Nat × Nat)) :=
  (List.range surface.height).flatMap fun row => surface.band row (surface.courses row)

/-! ## Going around -/

variable {surface}

theorem next_lt (column : Nat) : surface.next column < surface.width :=
  Nat.mod_lt _ (by have := surface.several; omega)

theorem next_eq {column : Nat} (inside : column < surface.width) :
    surface.next column = if column + 1 = surface.width then 0 else column + 1 := by
  rw [next]
  split
  · next around => rw [around, Nat.mod_self]
  · exact Nat.mod_eq_of_lt (by omega)

theorem previous_lt {column : Nat} (inside : column < surface.width) :
    surface.previous column < surface.width := by
  unfold previous
  split <;> omega

theorem next_previous {column : Nat} (inside : column < surface.width) :
    surface.next (surface.previous column) = column := by
  rw [next_eq (previous_lt inside), previous]
  split <;> split <;> omega

theorem previous_next {column : Nat} (inside : column < surface.width) :
    surface.previous (surface.next column) = column := by
  rw [next_eq inside, previous]
  split <;> split <;> omega

theorem next_ne {column : Nat} (inside : column < surface.width) :
    surface.next column ≠ column := by
  have several := surface.several
  rw [next_eq inside]
  split <;> omega

/-- With three columns or more the one ahead is not the one behind. -/
theorem next_next_ne {column : Nat} (inside : column < surface.width) :
    surface.next (surface.next column) ≠ column := by
  have several := surface.several
  rw [next_eq (next_lt column), next_eq inside]
  split <;> split <;> omega

/-! ## Bands -/

theorem courses_of_pole {row : Nat} (pole : surface.pole row = true) :
    surface.courses row = [.down, .up, .ahead] := by
  simp [courses, List.filter_cons, takes, pole, surface.apart row pole]

theorem courses_before_pole {row : Nat} (pole : surface.pole (row + 1) = true) :
    surface.courses row = [.down, .up, .back] := by
  cases before : surface.pole row with
  | true => exact absurd ((surface.apart row before).symm.trans pole) Bool.false_ne_true
  | false => simp [courses, List.filter_cons, takes, before, pole]

theorem courses_of_rows {row : Nat} (first : surface.pole row = false)
    (second : surface.pole (row + 1) = false) :
    surface.courses row = [.down, .up, .ahead, .back, .slant, .slantBack] := by
  simp [courses, List.filter_cons, takes, first, second]

theorem band_append_perm (row : Nat) (first second : List Course) :
    (surface.band row first ++ surface.band row second).Perm
      (surface.band row (first ++ second)) := by
  simp only [band, List.map_append]
  exact List.flatMap_append_perm _ _ _

theorem band_perm (row : Nat) {first second : List Course} (perm : first.Perm second) :
    (surface.band row first).Perm (surface.band row second) :=
  List.Perm.flatMap_left _ fun _ _ => perm.map _

/-- Faces that stand in a band, one in each cell. -/
theorem gluedEdges_map_range (surface : Revolution) {spot : Nat → Nat × Nat}
    {face : Nat → Face} {row : Nat} {courses : List Course}
    (placed : ∀ column < surface.width, (face column).edges.map (Prod.map spot spot) =
      courses.map fun course => surface.edge ⟨row, column, course⟩) :
    gluedEdges spot ((List.range surface.width).map face) = surface.band row courses := by
  rw [gluedEdges, List.flatMap_map, band]
  exact List.flatMap_congr fun column member => placed column (List.mem_range.mp member)

/-- A grid of cells, each with the edges of the cell there. -/
theorem gluedEdges_grid (surface : Revolution) {spot : Nat → Nat × Nat}
    {cell : Nat → Nat → List Face} {courses : Nat → List Course}
    (placed : ∀ row < surface.height, ∀ column < surface.width,
      gluedEdges spot (cell row column) =
        (courses row).map fun course => surface.edge ⟨row, column, course⟩)
    (listed : ∀ row < surface.height, (courses row).Perm (surface.courses row)) :
    (gluedEdges spot ((List.range surface.height).flatMap fun row =>
      (List.range surface.width).flatMap fun column => cell row column)).Perm surface.edges := by
  have rows : gluedEdges spot ((List.range surface.height).flatMap fun row =>
        (List.range surface.width).flatMap fun column => cell row column) =
      (List.range surface.height).flatMap fun row => surface.band row (courses row) := by
    rw [gluedEdges, List.flatMap_assoc]
    refine List.flatMap_congr fun row inRows => ?_
    rw [List.flatMap_assoc]
    exact List.flatMap_congr fun column inColumns =>
      placed row (List.mem_range.mp inRows) column (List.mem_range.mp inColumns)
  rw [rows]
  exact List.Perm.flatMap_left _ fun row inRows =>
    band_perm row (listed row (List.mem_range.mp inRows))

/-! ## Edges around a row -/

theorem edge_ahead {row : Nat} (taken : surface.takes row .ahead = true) (column : Nat) :
    surface.edge ⟨row, column, .ahead⟩ =
      ((row + 1, column), (row + 1, surface.next column)) := by
  have apart : surface.pole (row + 1) = false := by simpa [takes] using taken
  simp [edge, spot, apart]

theorem edge_back {row : Nat} (taken : surface.takes row .back = true) (column : Nat) :
    surface.edge ⟨row, column, .back⟩ = ((row, surface.next column), (row, column)) := by
  have apart : surface.pole row = false := by simpa [takes] using taken
  simp [edge, spot, apart]

theorem rows_edge (surface : Revolution) (side : CellEdge) :
    (surface.edge side).1.1 = side.rows.1 ∧ (surface.edge side).2.1 = side.rows.2 := by
  rcases side with ⟨row, column, course⟩
  cases course with
  | slant =>
      simp only [edge]
      split <;> exact ⟨rfl, rfl⟩
  | slantBack =>
      simp only [edge]
      split <;> exact ⟨rfl, rfl⟩
  | down => exact ⟨rfl, rfl⟩
  | up => exact ⟨rfl, rfl⟩
  | ahead => exact ⟨rfl, rfl⟩
  | back => exact ⟨rfl, rfl⟩

/-! ## Where an edge is -/

variable (surface)

/-- The edge of a cell that leads from one spot to another. -/
def locate : (Nat × Nat) × (Nat × Nat) → CellEdge
  | ((row, column), (otherRow, otherColumn)) =>
      if row = otherRow then
        if otherColumn = surface.next column then ⟨row - 1, column, .ahead⟩
        else ⟨row, otherColumn, .back⟩
      else if row < otherRow then
        if surface.pole row then ⟨row, otherColumn, .down⟩
        else if surface.pole otherRow || column = otherColumn then ⟨row, column, .down⟩
        else ⟨row, if surface.falling then column else otherColumn, .slant⟩
      else
        if surface.pole otherRow then ⟨otherRow, surface.previous column, .up⟩
        else if surface.pole row || column = otherColumn then
          ⟨otherRow, surface.previous otherColumn, .up⟩
        else ⟨otherRow, if surface.falling then otherColumn else column, .slantBack⟩

variable {surface}

theorem locate_edge {side : CellEdge} (inside : side.column < surface.width)
    (taken : surface.takes side.row side.course) : surface.locate (surface.edge side) = side := by
  rcases side with ⟨row, column, course⟩
  have apart := surface.apart row
  have other := next_ne inside
  have behind := next_next_ne inside
  have around := previous_next inside
  have later : ¬ row + 1 < row := Nat.not_lt.mpr (Nat.le_succ row)
  -- The spot at a pole does not tell the column, which is read off the other end of the edge.
  cases course with
  | down =>
      cases first : surface.pole row with
      | true => simp [edge, locate, spot, first, apart first]
      | false => cases second : surface.pole (row + 1) <;> simp [edge, locate, spot, first, second]
  | up =>
      cases first : surface.pole row with
      | true => simp [edge, locate, spot, first, apart first, around, later]
      | false =>
          cases second : surface.pole (row + 1) <;>
            simp [edge, locate, spot, first, second, around, later]
  | ahead => simp [edge_ahead taken, locate]
  | back => simp [edge_back taken, locate, behind.symm]
  | slant =>
      have poles : surface.pole row = false ∧ surface.pole (row + 1) = false := by
        simpa [takes] using taken
      cases falls : surface.falling <;>
        simp [edge, locate, spot, poles, falls, other, other.symm]
  | slantBack =>
      have poles : surface.pole row = false ∧ surface.pole (row + 1) = false := by
        simpa [takes] using taken
      cases falls : surface.falling <;>
        simp [edge, locate, spot, poles, falls, other, other.symm, later]

/-! ## Edges and their reverses -/

theorem mem_courses {row : Nat} {course : Course} :
    course ∈ surface.courses row ↔ surface.takes row course = true := by
  cases course <;> simp [courses]

theorem mem_edges {edge : (Nat × Nat) × (Nat × Nat)} :
    edge ∈ surface.edges ↔ ∃ side : CellEdge, side.row < surface.height ∧
      side.column < surface.width ∧ surface.takes side.row side.course = true ∧
        surface.edge side = edge := by
  simp only [edges, band, List.mem_flatMap, List.mem_range, List.mem_map, mem_courses]
  constructor
  · rintro ⟨row, inRows, column, inColumns, course, taken, rfl⟩
    exact ⟨⟨row, column, course⟩, inRows, inColumns, taken, rfl⟩
  · rintro ⟨⟨row, column, course⟩, inRows, inColumns, taken, rfl⟩
    exact ⟨row, inRows, column, inColumns, course, taken, rfl⟩

theorem nodup_edges : surface.edges.Nodup := by
  have located {row column : Nat} (inColumns : column ∈ List.range surface.width)
      {course : Course} (member : course ∈ surface.courses row) :
      surface.locate (surface.edge ⟨row, column, course⟩) = ⟨row, column, course⟩ :=
    locate_edge (List.mem_range.mp inColumns) (mem_courses.mp member)
  refine Repetition.nodup_flatMap_of_key (fun edge => (surface.locate edge).row) List.nodup_range
    (fun row _ => ?_) ?_
  · refine Repetition.nodup_flatMap_of_key (fun edge => (surface.locate edge).column)
      List.nodup_range (fun column inColumns => ?_) ?_
    · refine List.Nodup.map_on (fun first inFirst second inSecond equal => ?_)
        (List.Nodup.filter _ (by decide))
      have same := congrArg surface.locate equal
      rw [located inColumns inFirst, located inColumns inSecond] at same
      exact congrArg CellEdge.course same
    · intro column inColumns edge member
      rcases List.mem_map.mp member with ⟨course, taken, rfl⟩
      rw [located inColumns taken]
  · intro row _ edge member
    rcases List.mem_flatMap.mp member with ⟨column, inColumns, member⟩
    rcases List.mem_map.mp member with ⟨course, taken, rfl⟩
    rw [located inColumns taken]

variable (surface)

/-- The edge of a cell that leads the other way. Along a column it belongs to the cell at the side,
and around a row to the band before or behind. -/
def reverse : CellEdge → CellEdge
  | ⟨row, column, .down⟩ => ⟨row, surface.previous column, .up⟩
  | ⟨row, column, .up⟩ => ⟨row, surface.next column, .down⟩
  | ⟨row, column, .ahead⟩ => ⟨row + 1, column, .back⟩
  | ⟨row, column, .back⟩ => ⟨row - 1, column, .ahead⟩
  | ⟨row, column, .slant⟩ => ⟨row, column, .slantBack⟩
  | ⟨row, column, .slantBack⟩ => ⟨row, column, .slant⟩

variable {surface}

section

variable {side : CellEdge} (inside : side.column < surface.width)

include inside

theorem column_reverse_lt : (surface.reverse side).column < surface.width := by
  rcases side with ⟨row, column, course⟩
  cases course with
  | down => exact previous_lt inside
  | up => exact next_lt column
  | ahead => exact inside
  | back => exact inside
  | slant => exact inside
  | slantBack => exact inside

/-- Only an edge back in the first row is that of no other cell when it is reversed. -/
theorem edge_reverse (inner : side.course = .back → side.row ≠ 0) :
    surface.edge (surface.reverse side) = (surface.edge side).swap := by
  rcases side with ⟨row, column, course⟩
  cases course with
  | down => simp only [reverse, edge, next_previous inside, Prod.swap_prod_mk]
  | up => rfl
  | ahead => rfl
  | back =>
      have before : row - 1 + 1 = row := Nat.succ_pred_eq_of_ne_zero (inner rfl)
      simp only [reverse, edge, before, Prod.swap_prod_mk]
  | slant =>
      simp only [reverse, edge]
      split <;> rfl
  | slantBack =>
      simp only [reverse, edge]
      split <;> rfl

end

theorem takes_reverse {side : CellEdge} (inner : side.course = .back → side.row ≠ 0)
    (taken : surface.takes side.row side.course = true) :
    surface.takes (surface.reverse side).row (surface.reverse side).course = true := by
  rcases side with ⟨row, column, course⟩
  cases course with
  | back =>
      have before : row - 1 + 1 = row := Nat.succ_pred_eq_of_ne_zero (inner rfl)
      simpa only [reverse, takes, before] using taken
  | down => exact taken
  | up => exact taken
  | ahead => exact taken
  | slant => exact taken
  | slantBack => exact taken

/-- Around each row lead the edges back of the band behind it, and those ahead of the band before
it. -/
theorem mem_edges_within {row column other : Nat} :
    ((row, column), (row, other)) ∈ surface.edges ↔ surface.pole row = false ∧
      (row < surface.height ∧ other < surface.width ∧ column = surface.next other ∨
        0 < row ∧ row ≤ surface.height ∧ column < surface.width ∧
          other = surface.next column) := by
  constructor
  · intro member
    rcases mem_edges.mp member with ⟨⟨place, start, course⟩, inRows, inColumns, taken, equal⟩
    have rows := surface.rows_edge ⟨place, start, course⟩
    rw [equal] at rows
    cases course with
    | ahead =>
        have apart : surface.pole (place + 1) = false := by simpa [takes] using taken
        cases (edge_ahead taken start).symm.trans equal
        exact ⟨apart, .inr ⟨Nat.succ_pos place, inRows, inColumns, rfl⟩⟩
    | back =>
        have apart : surface.pole place = false := by simpa [takes] using taken
        cases (edge_back taken start).symm.trans equal
        exact ⟨apart, .inl ⟨inRows, inColumns, rfl⟩⟩
    | down => exact absurd (rows.1.symm.trans rows.2) (Nat.succ_ne_self place).symm
    | up => exact absurd (rows.1.symm.trans rows.2) (Nat.succ_ne_self place)
    | slant => exact absurd (rows.1.symm.trans rows.2) (Nat.succ_ne_self place).symm
    | slantBack => exact absurd (rows.1.symm.trans rows.2) (Nat.succ_ne_self place)
  · rintro ⟨apart, ⟨inRows, inColumns, rfl⟩ | ⟨positive, inRows, inColumns, rfl⟩⟩
    · have taken : surface.takes row .back = true := by simp [takes, apart]
      exact mem_edges.mpr ⟨⟨row, other, .back⟩, inRows, inColumns, taken, edge_back taken other⟩
    · rcases Nat.exists_eq_succ_of_ne_zero (Nat.ne_of_gt positive) with ⟨before, rfl⟩
      have taken : surface.takes before .ahead = true := by simp [takes, apart]
      exact mem_edges.mpr
        ⟨⟨before, column, .ahead⟩, inRows, inColumns, taken, edge_ahead taken column⟩

theorem ends_ne {edge : (Nat × Nat) × (Nat × Nat)} (member : edge ∈ surface.edges) :
    edge.1 ≠ edge.2 := by
  rcases edge with ⟨⟨row, column⟩, other⟩
  intro same
  obtain rfl : (row, column) = other := same
  rcases mem_edges_within.mp member with ⟨_, ⟨_, inside, equal⟩ | ⟨_, _, inside, equal⟩⟩
  · exact next_ne inside equal.symm
  · exact next_ne inside equal.symm

/-- An edge within the first or the last row. -/
def Outer (surface : Revolution) (edge : (Nat × Nat) × (Nat × Nat)) : Prop :=
  edge.1.1 = edge.2.1 ∧ (edge.1.1 = 0 ∨ edge.1.1 = surface.height)

instance (edge : (Nat × Nat) × (Nat × Nat)) : Decidable (surface.Outer edge) :=
  inferInstanceAs (Decidable (_ ∧ _))

/-- Around the first row lead the edges back only, and around the last row those ahead. -/
theorem swap_not_mem_edges {edge : (Nat × Nat) × (Nat × Nat)} (member : edge ∈ surface.edges)
    (outer : surface.Outer edge) : edge.swap ∉ surface.edges := by
  rcases edge with ⟨⟨row, column⟩, ⟨otherRow, other⟩⟩
  rcases outer with ⟨level, outer⟩
  obtain rfl : row = otherRow := level
  intro reversed
  rcases mem_edges_within.mp member with ⟨_, ⟨before, inside, equal⟩ | ⟨behind, _, inside, equal⟩⟩
  · rcases mem_edges_within.mp reversed with ⟨_, ⟨_, _, again⟩ | ⟨behind, _⟩⟩
    · exact next_next_ne inside (equal ▸ again.symm)
    · rcases outer with first | last
      · exact Nat.ne_of_gt behind first
      · exact Nat.ne_of_lt before last
  · rcases mem_edges_within.mp reversed with ⟨_, ⟨before, _⟩ | ⟨_, _, _, again⟩⟩
    · rcases outer with first | last
      · exact Nat.ne_of_gt behind first
      · exact Nat.ne_of_lt before last
    · exact next_next_ne inside (equal ▸ again.symm)

theorem swap_mem_edges {edge : (Nat × Nat) × (Nat × Nat)} (member : edge ∈ surface.edges)
    (inner : ¬ surface.Outer edge) : edge.swap ∈ surface.edges := by
  rcases mem_edges.mp member with ⟨⟨row, column, course⟩, inRows, inColumns, taken, rfl⟩
  have back : course = .back → row ≠ 0 := by
    rintro rfl rfl
    exact inner ⟨rfl, .inl rfl⟩
  rw [← edge_reverse inColumns back]
  refine mem_edges.mpr ⟨_, ?_, column_reverse_lt inColumns, takes_reverse back taken, rfl⟩
  cases course with
  | ahead => exact Nat.lt_of_le_of_ne inRows fun last => inner ⟨rfl, .inr last⟩
  | back => exact Nat.lt_of_le_of_lt (Nat.sub_le row 1) inRows
  | down => exact inRows
  | up => exact inRows
  | slant => exact inRows
  | slantBack => exact inRows

/-- Just the edges within the first and the last row are in one direction only. -/
theorem count_edges {edge : (Nat × Nat) × (Nat × Nat)} (member : edge ∈ surface.edges) :
    surface.edges.count edge = 1 ∧
      surface.edges.count edge.swap = if surface.Outer edge then 0 else 1 := by
  refine ⟨List.count_eq_one_of_mem nodup_edges member, ?_⟩
  split
  · next outer => exact List.count_eq_zero_of_not_mem (swap_not_mem_edges member outer)
  · next inner => exact List.count_eq_one_of_mem nodup_edges (swap_mem_edges member inner)

/-- A surface from pole to pole has no boundary. -/
theorem closed_edges (first : surface.pole 0 = true) (last : surface.pole surface.height = true) :
    Closed surface.edges := by
  refine closed_iff.mpr ⟨nodup_edges, fun edge member => swap_mem_edges member ?_⟩
  rcases edge with ⟨⟨row, column⟩, ⟨otherRow, other⟩⟩
  rintro ⟨level, outer⟩
  obtain rfl : row = otherRow := level
  have apart := (mem_edges_within.mp member).1
  rcases outer with outer | outer
  · exact Bool.false_ne_true (apart.symm.trans ((congrArg _ outer).trans first))
  · exact Bool.false_ne_true (apart.symm.trans ((congrArg _ outer).trans last))

end Revolution

end GrowthGrammar
