import GrowthGrammar.Geometry.Vector

/-!
# Bounding boxes

The smallest box around some points, which is empty when there are none.
-/

namespace GrowthGrammar

structure Bounds where
  least : Vec3 Float
  greatest : Vec3 Float

namespace Bounds

def empty : Bounds :=
  let infinity : Float := 1 / 0
  { least := ⟨infinity, infinity, infinity⟩, greatest := ⟨-infinity, -infinity, -infinity⟩ }

/-! What is not a number prevails on its axis. -/

def lesser (first second : Float) : Float :=
  if first.isNaN || first < second then first else second

def greater (first second : Float) : Float :=
  if first.isNaN || second < first then first else second

def extend (bounds : Bounds) (point : Vec3 Float) : Bounds :=
  { least := bounds.least.zipWith lesser point
    greatest := bounds.greatest.zipWith greater point }

def ofPoints : List (Vec3 Float) → Bounds
  | [] => empty
  | point :: points => points.foldl extend { least := point, greatest := point }

def isEmpty (bounds : Bounds) : Bool :=
  bounds.greatest.x < bounds.least.x || bounds.greatest.y < bounds.least.y ||
    bounds.greatest.z < bounds.least.z

def center (bounds : Bounds) : Vec3 Float :=
  if bounds.isEmpty then .zero
  else bounds.least.zipWith (fun least greatest => (least + greatest) / 2) bounds.greatest

def size (bounds : Bounds) : Vec3 Float :=
  if bounds.isEmpty then .zero
  else bounds.least.zipWith (fun least greatest => greatest - least) bounds.greatest

/-- Where a camera looks: the center, moved to where the first coordinate is zero. -/
def target (bounds : Bounds) : Vec3 Float :=
  { bounds.center with x := 0 }

end Bounds

end GrowthGrammar
