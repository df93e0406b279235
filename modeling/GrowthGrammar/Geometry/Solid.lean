import GrowthGrammar.Geometry.Vector

/-!
# Solids

Triangle meshes of spheres, boxes, and tapered cylinders. A solid stands in its own space with its
main axis along the third axis. Faces are computed from the numbers of segments alone.
-/

namespace GrowthGrammar

/-- A triangle, as places in a list of vertices. -/
structure Face where
  a : Nat
  b : Nat
  c : Nat
  deriving DecidableEq, Repr

def Face.vertices (face : Face) : List Nat :=
  [face.a, face.b, face.c]

structure Solid (α : Type) where
  vertices : List (Vec3 α)
  faces : List Face
  deriving Repr

namespace Solid

def empty : Solid α :=
  { vertices := [], faces := [] }

/-- A number of segments is at least `least`. -/
def segments (least : Nat) (count : Int) : Nat :=
  max least count.toNat

/-! Spheres: a grid of `height + 1` rows, from pole to pole, of `width + 1` vertices each. -/

def gridPlace (width row column : Nat) : Nat :=
  row * (width + 1) + column

/-- The two triangles of a grid cell. Cells at a pole have only the one that does not vanish. -/
def sphereCell (width height row column : Nat) : List Face :=
  let a := gridPlace width row (column + 1)
  let b := gridPlace width row column
  let c := gridPlace width (row + 1) column
  let d := gridPlace width (row + 1) (column + 1)
  (if row = 0 then [] else [{ a := a, b := b, c := d }]) ++
    (if row + 1 = height then [] else [{ a := b, b := c, c := d }])

def sphereFaces (width height : Nat) : List Face :=
  (List.range height).flatMap fun row =>
    (List.range width).flatMap fun column => sphereCell width height row column

/-! Cylinders: `count` vertices around the bottom, as many around the top, and the two centres. -/

def sideFaces (count : Nat) : List Face :=
  let next (i : Nat) : Nat := (i + 1) % count
  (List.range count).map (fun i => { a := i, b := next i, c := count + next i }) ++
    (List.range count).map (fun i => { a := i, b := count + next i, c := count + i })

def bottomFaces (count : Nat) : List Face :=
  (List.range count).map fun i => { a := 2 * count, b := (i + 1) % count, c := i }

def topFaces (count : Nat) : List Face :=
  (List.range count).map fun i =>
    { a := 2 * count + 1, b := count + i, c := count + (i + 1) % count }

def cylinderFaces (count : Nat) : List Face :=
  sideFaces count ++ bottomFaces count ++ topFaces count

/-- The sides of a box, two triangles each. -/
def boxFaces : List Face :=
  [⟨0, 2, 1⟩, ⟨0, 3, 2⟩, ⟨4, 5, 6⟩, ⟨4, 6, 7⟩, ⟨0, 1, 5⟩, ⟨0, 5, 4⟩,
   ⟨3, 7, 6⟩, ⟨3, 6, 2⟩, ⟨0, 4, 7⟩, ⟨0, 7, 3⟩, ⟨1, 2, 6⟩, ⟨1, 6, 5⟩]

/-! Vertices. -/

section

variable [Scalar α]

@[specialize] def sphereVertices (radius : α) (width height : Nat) : List (Vec3 α) :=
  (List.range (height + 1)).flatMap fun row =>
    let polar := Scalar.stepPoint Scalar.one height row * Scalar.pi
    let s := Scalar.sin polar
    let z := radius * Scalar.cos polar
    (List.range (width + 1)).map fun column =>
      let turn := Scalar.stepPoint Scalar.one width column * Scalar.two * Scalar.pi
      { x := -radius * Scalar.cos turn * s, y := -radius * Scalar.sin turn * s, z }

/-- A sphere around the origin with its poles on the third axis. -/
def sphere (radius : α) (widthSegments heightSegments : Int) : Solid α :=
  let width := segments 3 widthSegments
  let height := segments 2 heightSegments
  { vertices := sphereVertices radius width height, faces := sphereFaces width height }

@[specialize] def circle (radius height : α) (count : Nat) : List (Vec3 α) :=
  (List.range count).map fun i =>
    let turn := Scalar.ofNat i * (Scalar.two * Scalar.pi / Scalar.ofNat count)
    { x := Scalar.cos turn * radius, y := Scalar.sin turn * radius, z := height }

def cylinderVertices (bottomRadius topRadius bottom top : α) (count : Nat) : List (Vec3 α) :=
  circle bottomRadius bottom count ++ circle topRadius top count ++
    [⟨Scalar.zero, Scalar.zero, bottom⟩, ⟨Scalar.zero, Scalar.zero, top⟩]

def cylinder (bottomRadius topRadius bottom top : α) (radialSegments : Int) : Solid α :=
  let count := segments 3 radialSegments
  { vertices := cylinderVertices bottomRadius topRadius bottom top count
    faces := cylinderFaces count }

/-- A tapered segment from the origin up to its length. -/
def segment (length startRadius endRadius : α) (radialSegments : Int) : Solid α :=
  cylinder startRadius endRadius Scalar.zero length radialSegments

/-- A cone around the origin with its apex up. -/
def cone (radius height : α) (radialSegments : Int) : Solid α :=
  cylinder radius Scalar.zero (-height / Scalar.two) (height / Scalar.two) radialSegments

/-- A box around the origin. -/
def box (width height depth : α) : Solid α :=
  let x := width / Scalar.two
  let y := height / Scalar.two
  let z := depth / Scalar.two
  { vertices := [⟨-x, -y, -z⟩, ⟨x, -y, -z⟩, ⟨x, y, -z⟩, ⟨-x, y, -z⟩,
                 ⟨-x, -y, z⟩, ⟨x, -y, z⟩, ⟨x, y, z⟩, ⟨-x, y, z⟩]
    faces := boxFaces }

end

end Solid

end GrowthGrammar
