import Conform.Number.Double
/-!
JSON trees. Integers of any size are kept apart from numbers with a fraction or an exponent, and
members keep their order.
-/

set_option autoImplicit false

namespace Conform

inductive Json where
  | null
  | bool (b : Bool)
  | int (n : Int)
  | float (x : Double)
  | str (s : String)
  | array (items : List Json)
  | object (members : List (String × Json))

namespace Json

instance : Inhabited Json := ⟨.null⟩

/-- Puts a member into an object: in place of one with the same key, else at the end. -/
def setMember (key : String) (value : Json) : List (String × Json) → List (String × Json)
  | [] => [(key, value)]
  | (k, v) :: rest =>
    if k == key then (k, value) :: rest else (k, v) :: setMember key value rest

def ofMembers (members : List (String × Json)) : Json :=
  .object (members.foldl (fun made m => setMember m.1 m.2 made) [])

end Json

end Conform
