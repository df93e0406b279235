import GrowthGrammar.Geometry.Solid
import GrowthGrammar.Scene.Material

/-!
# Arenas

An arena owns the materials and geometries of one run and disposes of them all at once.
-/

namespace GrowthGrammar

inductive Resource
  | material (material : Material)
  | geometry (solid : Solid Float)

/-- A geometry that is disposed of keeps neither vertices nor faces. -/
def Resource.dispose : Resource → Resource
  | material value => .material value
  | geometry _ => .geometry .empty

structure Holding where
  resource : Resource
  disposed : Bool

def Holding.dispose (holding : Holding) : Holding :=
  { resource := holding.resource.dispose, disposed := true }

/-- All resources ever tracked. The place of a resource is its identity. -/
structure Arena where
  holdings : Array Holding
  released : Bool

namespace Arena

def empty : Arena :=
  { holdings := #[], released := false }

def track (arena : Arena) (resource : Resource) : Arena :=
  { arena with holdings := arena.holdings.push { resource, disposed := false } }

/-- The identity of the resource that is tracked next. -/
def nextId (arena : Arena) : Nat :=
  arena.holdings.size

/-- The number of resources that the arena still owns. -/
def size (arena : Arena) : Nat :=
  arena.holdings.countP fun holding => !holding.disposed

def release (arena : Arena) : Arena :=
  { holdings := arena.holdings.map Holding.dispose, released := true }

end Arena

end GrowthGrammar
