import GrowthGrammar.Association

/-!
# JSON values

Integers and doubles are told apart. The members of an object have an order, and each key occurs
once.
-/

namespace GrowthGrammar

inductive Json
  | null
  | bool (value : Bool)
  | int (value : Int)
  | float (value : Float)
  | string (value : String)
  | array (items : List Json)
  | object (members : List (String × Json))

namespace Json

/-- The object with some members, given in order; of a key given twice the last value counts. -/
def ofMembers (members : List (String × Json)) : Json :=
  object (members.foldl (fun members (key, value) => Association.put members key value) [])

def member? (members : List (String × Json)) (key : String) : Option Json :=
  members.lookup key

end Json

end GrowthGrammar
