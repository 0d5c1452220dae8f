import Conform.Number.Double
import Conform.Number.Reading
import Conform.Pattern
/-!
Dynamic values. Schemas, the values they describe and the documents they are stored in are all
values of one kind; containers that several places share live in a heap and are linked to.
-/

set_option autoImplicit false

namespace Conform

inductive Check where
  | null
  | integer
  | positiveInteger
  | plainObject
  | table
  deriving DecidableEq

inductive HostFunction where
  | length
  | truth
  | callable
  | text
  deriving DecidableEq

/-- The numbers of fixed width that are modelled: every one of them is a whole number, a truth value
or a double. -/
inductive Machine where
  | int64 (n : Int)
  | uint64 (n : Int)
  | float32 (x : Double)
  | float64 (x : Double)
  | bool (b : Bool)
  deriving DecidableEq

/-- What a function takes: named arguments by position, further optional ones, any number more if
it is variadic, and arguments that must be given by name. -/
structure Signature where
  required : List String
  optional : Nat
  variadic : Bool
  keywords : List String
  deriving DecidableEq

inductive ColumnKind where
  | int64
  | float64
  | bool
  | object
  | time
  deriving DecidableEq

/-- What a class says of slots: nothing, so that its instances have open attributes, one name, or
a sequence of names. -/
inductive SlotNames where
  | absent
  | one (name : String)
  | several (names : List String)
  deriving DecidableEq

/-- A class of a chain, with what it says of slots itself. -/
structure SlotClass where
  name : String
  slots : SlotNames
  deriving DecidableEq

/-- Which member of an enumeration: the class, the member's name and its place in the class. -/
structure Member where
  className : String
  name : String
  place : Nat
  deriving DecidableEq

/-- A property whose reading fails, with the kind and the text of the failure. -/
structure FailingProperty where
  name : String
  kind : String
  message : String
  deriving DecidableEq

mutual

inductive Value where
  | undefined
  | null
  | bool (b : Bool)
  | int (n : Int)
  | float (x : Double)
  | str (s : String)
  | check (c : Check)
  | list (items : List Value)
  | tuple (items : List Value)
  | mapping (entries : List (Value × Value))
  | union (members : List Value)
  /-- A container in the heap. -/
  | link (address : Nat)
  /-- Anything else, with the number by which the caller knows it, if it came from outside. -/
  | object (handle : Option Nat) (content : Object)

inductive Object where
  | machine (x : Machine)
  | fraction (num : Int) (den : Nat)
  | decimal (d : Decimal)
  | complex (re im : Double)
  | bytes (data : List UInt8)
  | symbol (member : Member) (value : Value)
  | intMember (member : Member) (n : Int)
  | strMember (member : Member) (s : String)
  | pattern (p : Pattern)
  | bytePattern (p : BytePattern)
  | host (f : HostFunction)
  /-- A function, or an object without a name that can be called as one, with its class. -/
  | function (name : Option String) (className : String) (signature : Signature) (code : Nat)
      (own : List (String × Value))
  | set (items : List Value)
  | frozenSet (items : List Value)
  | proxy (entries : List (Value × Value))
  | options (flag : Value)
  | mismatch (path : List Value) (actual expected : Value)
  /-- An object with attributes of its own, attributes of its class, and failing ones. -/
  | record (className : String) (own inherited : List (String × Value))
      (failing : List FailingProperty)
  /-- An object of the last of a chain of classes, each with attributes of the class itself, and
  what the object's own attributes hold. -/
  | slotted (chain : List (SlotClass × List (String × Value))) (held : List (String × Value))
  | series (name : Value) (kind : ColumnKind) (cells : List Value) (index : Option (List Value))
  | frame (columns : List (Value × ColumnKind × List Value)) (index : Option (List Value))

end

instance : Inhabited Value := ⟨.null⟩

/-! ## Shared containers -/

inductive Shared where
  | list (items : List Value)
  | mapping (entries : List (Value × Value))

def Shared.toValue : Shared → Value
  | .list items => .list items
  | .mapping entries => .mapping entries

/-- The shared containers, and what reading an attribute finds in the classes of objects where it
would find nothing otherwise: methods, attributes of built-in classes and computed ones. -/
structure Heap where
  cells : Array Shared
  inherited : Value → String → Option Value

namespace Heap

/-- Shared containers among objects whose classes give them nothing. -/
def ofCells (cells : Array Shared) : Heap := ⟨cells, fun _ _ => none⟩

def empty : Heap := ofCells #[]

def size (h : Heap) : Nat := h.cells.size

/-- The container at an address, which is never a link itself. -/
def cell (h : Heap) (address : Nat) : Value :=
  match h.cells[address]? with
  | some shared => shared.toValue
  | none => .list []

/-- A value with the link at its root followed. -/
def resolve (h : Heap) : Value → Value
  | .link address => h.cell address
  | v => v

def items? (h : Heap) (v : Value) : Option (List Value) :=
  match h.resolve v with
  | .list items => some items
  | .tuple items => some items
  | _ => none

def entries? (h : Heap) (v : Value) : Option (List (Value × Value)) :=
  match h.resolve v with
  | .mapping entries => some entries
  | .object _ (.proxy entries) => some entries
  | _ => none

def isArray (h : Heap) (v : Value) : Bool := (h.items? v).isSome

end Heap

namespace Value

/-- The text of a string or of a member that is a string. -/
def text? : Value → Option String
  | .str s => some s
  | .object _ (.strMember _ s) => some s
  | _ => none

/-! ## Size -/

mutual

/-- How many values a value holds, itself included; links count as one. -/
def nodes : Value → Nat
  | .list items => allNodes items + 1
  | .tuple items => allNodes items + 1
  | .mapping entries => entryNodes entries + 1
  | .union members => allNodes members + 1
  | .object _ content => contentNodes content + 1
  | _ => 1

def allNodes : List Value → Nat
  | [] => 0
  | v :: rest => nodes v + allNodes rest

def entryNodes : List (Value × Value) → Nat
  | [] => 0
  | (k, v) :: rest => nodes k + nodes v + entryNodes rest

def namedNodes : List (String × Value) → Nat
  | [] => 0
  | (_, v) :: rest => nodes v + namedNodes rest

def columnNodes : List (Value × ColumnKind × List Value) → Nat
  | [] => 0
  | (name, _, cells) :: rest => nodes name + allNodes cells + columnNodes rest

def chainNodes : List (SlotClass × List (String × Value)) → Nat
  | [] => 0
  | (_, attributes) :: rest => namedNodes attributes + chainNodes rest

def contentNodes : Object → Nat
  | .symbol _ value => nodes value
  | .function _ _ _ _ own => namedNodes own
  | .set items => allNodes items
  | .frozenSet items => allNodes items
  | .proxy entries => entryNodes entries
  | .options flag => nodes flag
  | .mismatch path actual expected => allNodes path + nodes actual + nodes expected
  | .record _ own inherited _ => namedNodes own + namedNodes inherited
  | .slotted chain held => chainNodes chain + namedNodes held
  | .series name _ cells _ => nodes name + allNodes cells
  | .frame columns _ => columnNodes columns
  | _ => 0

end

end Value

def Heap.nodes (h : Heap) : Nat := h.cells.foldl (fun n cell => n + cell.toValue.nodes) 0

end Conform
