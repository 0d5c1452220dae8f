import Conform.Json.Written
import Conform.Value.Table
/-!
Values as JSON and back. Only what is data has a JSON form: absent members are dropped, absent
items and numbers that JSON lacks are null, and a container inside itself has none. The containers
that are open are kept in a set that the whole traversal shares.
-/

set_option autoImplicit false

namespace Conform

/-- The digits of an integer, if they are not too many. -/
def integerText? (n : Int) : Option String := if isOverlong n then none else some (toString n)

def Value.jsonKey? : Value → Option String
  | .null => some "null"
  | .bool b => some (if b then "true" else "false")
  | .int n => integerText? n
  | .float x => some (jsonFloat x)
  | .str s => some s
  | .object _ (.machine (.float64 x)) => some (jsonFloat x)
  | .object _ (.intMember _ n) => integerText? n
  | .object _ (.strMember _ s) => some s
  | _ => none

/-- A number in JSON, which knows finite ones only. -/
def Double.toJson (x : Double) : Json := if x.isFinite then .float x else .null

def integerJson? (n : Int) : Option Json := if isOverlong n then none else some (.int n)

def Object.json? (h : Heap) : Object → Option Json
  | .machine (.float64 x) => some x.toJson
  | .intMember _ n => integerJson? n
  | .strMember _ s => some (.str s)
  | .series name kind cells index => seriesJson h name kind cells index
  | .frame columns index => frameJson h columns index
  | _ => none

/-! ## Open containers -/

/-- A computation that keeps the set of open containers, also where it finds nothing. -/
def Opening (α : Type) : Type := List Nat → Option α × List Nat

namespace Opening

variable {α β : Type}

protected def pure (a : α) : Opening α := fun opened => (some a, opened)

protected def bind (x : Opening α) (f : α → Opening β) : Opening β := fun opened =>
  match x opened with
  | (some a, opened') => f a opened'
  | (none, opened') => (none, opened')

instance : Monad Opening where
  pure := Opening.pure
  bind := Opening.bind

def lift (found : Option α) : Opening α := fun opened => (found, opened)

/-- Opens a container, which must not be open yet, and closes it in the end, whatever is found. -/
def within (address : Nat) (x : Opening α) : Opening α := fun opened =>
  if opened.contains address then (none, opened)
  else
    let (found, opened') := x (address :: opened)
    (found, opened'.erase address)

end Opening

mutual

/-- The JSON of a value, with links left to `onLink`. -/
def openJsonWith (h : Heap) (onLink : Nat → Opening Json) : Value → Opening Json
  | .undefined => .lift none
  | .null => pure .null
  | .bool b => pure (.bool b)
  | .int n => .lift (integerJson? n)
  | .float x => pure x.toJson
  | .str s => pure (.str s)
  | .list items => do pure (.array (← openJsonItems h onLink items))
  | .tuple items => do pure (.array (← openJsonItems h onLink items))
  | .mapping entries => do pure (.object (← openJsonMembers h onLink entries))
  | .link address => onLink address
  | .object _ content => .lift (content.json? h)
  | .check _ => .lift none
  | .union _ => .lift none

def openJsonItems (h : Heap) (onLink : Nat → Opening Json) : List Value → Opening (List Json)
  | [] => pure []
  | .undefined :: rest => do
    let items ← openJsonItems h onLink rest
    pure (.null :: items)
  | v :: rest => do
    let item ← openJsonWith h onLink v
    let items ← openJsonItems h onLink rest
    pure (item :: items)

def openJsonMembers (h : Heap) (onLink : Nat → Opening Json) :
    List (Value × Value) → Opening (List (String × Json))
  | [] => pure []
  | (_, .undefined) :: rest => openJsonMembers h onLink rest
  | (k, v) :: rest => do
    let key ← .lift k.jsonKey?
    let value ← openJsonWith h onLink v
    let members ← openJsonMembers h onLink rest
    pure ((key, value) :: members)

end

namespace Heap

/-- The JSON of a value through at most `depth` links inside one another. -/
def openJson (h : Heap) : Nat → Value → Opening Json
  | 0 => openJsonWith h fun _ => .lift none
  | depth + 1 => openJsonWith h fun address => .within address (openJson h depth (h.cell address))

/-- The JSON of a value; at first no container is open. -/
def json? (h : Heap) (v : Value) : Option Json := (h.openJson (h.size + 1) v []).1

def jsonText? (h : Heap) (v : Value) : Option String := (h.json? v).map (Json.text .dense)

end Heap

/-! ## Values out of JSON -/

mutual

def Json.toValue : Json → Value
  | .null => .null
  | .bool b => .bool b
  | .int n => .int n
  | .float x => .float x
  | .str s => .str s
  | .array items => .list (valuesOf items)
  | .object members => .mapping (entriesOf members)

def valuesOf : List Json → List Value
  | [] => []
  | item :: rest => item.toValue :: valuesOf rest

def entriesOf : List (String × Json) → List (Value × Value)
  | [] => []
  | (key, value) :: rest => (.str key, value.toValue) :: entriesOf rest

end

end Conform
