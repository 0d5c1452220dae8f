import Conform.Value.Equality
/-!
Properties of values: which ones a value owns, and what reading one gives. Mappings own their
keys, frames their columns, and other objects their attributes and the slots that hold something.
-/

set_option autoImplicit false

namespace Conform

/-! ## Slots -/

/-- The attribute that a slot of a class is kept under: a private name gets the class's name in
front, without the underscores that it starts with. -/
def privateName (className slot : String) : String :=
  if slot.startsWith "__" && !slot.endsWith "__" then
    "_" ++ (className.dropWhile (· = '_')).toString ++ slot
  else slot

/-- The attribute in which an object really keeps a slot: private names stay as they are in a
class whose name has nothing but underscores. -/
def storedName (className slot : String) : String :=
  if className.toList.all (· = '_') then slot else privateName className slot

/-- Slots that are no attributes but give objects open attributes or weak references. -/
def isSpecialSlot (name : String) : Bool := name == "__dict__" || name == "__weakref__"

namespace SlotClass

/-- The slots that a class names; a text is one name, not a sequence of letters. -/
def slotNames (c : SlotClass) : List String :=
  match c.slots with
  | .absent => []
  | .one name => [name]
  | .several names => names

def declared (c : SlotClass) : List String :=
  (c.slotNames.map (privateName c.name)).filter fun name => !isSpecialSlot name

def stored (c : SlotClass) : List String :=
  (c.slotNames.map (storedName c.name)).filter fun name => !isSpecialSlot name

end SlotClass

/-- A chain of classes from the first to the last, each with its own attributes. -/
abbrev ClassChain := List (SlotClass × List (String × Value))

/-- What a class knows a name as: a slot of its objects, or an attribute of the class. -/
inductive ClassEntry where
  | slot
  | attribute (v : Value)

def classEntry? (c : SlotClass × List (String × Value)) (name : String) : Option ClassEntry :=
  if c.1.stored.contains name then some .slot else (c.2.lookup name).map .attribute

namespace ClassChain

/-- What the last class that knows a name knows it as; classes before it are not asked. -/
def entry? (chain : ClassChain) (name : String) : Option ClassEntry :=
  chain.reverse.findSome? fun c => classEntry? c name

/-- An attribute that an object has by its classes alone. -/
def attribute? (chain : ClassChain) (name : String) : Option Value :=
  match chain.entry? name with
  | some (.attribute v) => some v
  | _ => none

/-- The names of what is held outside slots. -/
def openNames (chain : ClassChain) (held : List (String × Value)) : List String :=
  (held.map Prod.fst).filter fun name => !chain.entry? name matches some .slot

/-- The declared slots that have an attribute of that name, from the last class to the first, each
once. -/
def presentSlots (chain : ClassChain) (present : String → Bool) : List String :=
  ((chain.reverse.flatMap fun c => c.1.declared).filter present).eraseDups

/-- The names of what is held outside slots, and the present slots that are not among them. -/
def ownNames (chain : ClassChain) (held : List (String × Value)) (present : String → Bool) :
    List String :=
  let named := chain.openNames held
  named ++ (chain.presentSlots present).filter fun name => !named.contains name

end ClassChain

/-! ## Own names -/

def HostFunction.ownNames : HostFunction → List String
  | .truth => ["__new__", "__repr__", "__and__", "__rand__", "__xor__", "__rxor__", "__or__",
      "__ror__", "__doc__"]
  | .text => ["__new__", "__repr__", "__hash__", "__str__", "__getattribute__", "__lt__",
      "__le__", "__eq__", "__ne__", "__gt__", "__ge__", "__iter__", "__mod__", "__rmod__",
      "__len__", "__getitem__", "__add__", "__mul__", "__rmul__", "__contains__", "encode",
      "replace", "split", "rsplit", "join", "capitalize", "casefold", "title", "center", "count",
      "expandtabs", "find", "partition", "index", "ljust", "lower", "lstrip", "rfind", "rindex",
      "rjust", "rstrip", "rpartition", "splitlines", "strip", "swapcase", "translate", "upper",
      "startswith", "endswith", "removeprefix", "removesuffix", "isascii", "islower", "isupper",
      "istitle", "isspace", "isdecimal", "isdigit", "isnumeric", "isalpha", "isalnum",
      "isidentifier", "isprintable", "zfill", "format", "format_map", "__format__", "maketrans",
      "__sizeof__", "__getnewargs__", "__doc__"]
  | _ => []

def memberNames : List String := ["_value_", "_name_", "__objclass__", "_sort_order_"]

/-- The names of the attributes that an object owns; `present` tells which attributes it has. -/
def Object.ownNames (present : String → Bool) : Object → List String
  | .host f => f.ownNames
  | .function _ _ _ _ own => own.map Prod.fst
  | .record _ own _ _ => own.map Prod.fst
  | .slotted chain held => ClassChain.ownNames chain held present
  | .options _ => ["no_excess_props"]
  | .mismatch _ _ _ => ["path", "actual_value", "expected_schema"]
  | .fraction _ _ => ["_numerator", "_denominator"]
  | .symbol _ _ => memberNames
  | .intMember _ _ => memberNames
  | .strMember _ _ => memberNames
  | .series _ _ _ _ => ["_is_copy", "_mgr", "_item_cache", "_attrs", "_flags", "_name"]
  | _ => []

/-! ## Reading -/

def Member.attribute? (member : Member) (value : Value) (name : String) : Option Value :=
  match name with
  | "name" => some (.str member.name)
  | "_name_" => some (.str member.name)
  | "value" => some value
  | "_value_" => some value
  | "_sort_order_" => some (.int member.place)
  | _ => none

def functionAttribute? (functionName name : String) : Option Value :=
  if name == "__name__" || name == "__qualname__" then some (.str functionName) else none

/-- An attribute of an object; a failing one fails unless it says that it is absent. What a class
of a chain has under a name stands behind what the object holds there, unless it is a slot. -/
def Object.attribute? (content : Object) (name : String) : Except Failure (Option Value) :=
  match content with
  | .host f => .ok (functionAttribute? f.name name)
  | .function functionName _ _ _ own =>
    .ok (own.lookup name <|> functionName.bind fun f => functionAttribute? f name)
  | .record _ own inherited failing =>
    match failing.find? fun p => p.name == name with
    | some p =>
      if p.kind == "AttributeError" then .ok none else .error (.raised p.kind p.message)
    | none => .ok (own.lookup name <|> inherited.lookup name)
  | .slotted chain held => .ok (held.lookup name <|> ClassChain.attribute? chain name)
  | .options flag => .ok (if name == "no_excess_props" then some flag else none)
  | .mismatch path actual expected =>
    .ok (match name with
      | "path" => some (.tuple path)
      | "actual_value" => some actual
      | "expected_schema" => some expected
      | _ => none)
  | .fraction num den =>
    .ok (if name == "numerator" || name == "_numerator" then some (.int num)
      else if name == "denominator" || name == "_denominator" then some (.int den)
      else none)
  | .complex re im =>
    .ok (match name with
      | "real" => some (.float re)
      | "imag" => some (.float im)
      | _ => none)
  | .symbol member value => .ok (member.attribute? value name)
  | .intMember member n => .ok (member.attribute? (.int n) name)
  | .strMember member s => .ok (member.attribute? (.str s) name)
  | .series label _ _ _ =>
    .ok (if name == "name" || name == "_name" then some label else none)
  | _ => .ok none

/-- An attribute of a value. A decimal number is its own real part. -/
def Value.attribute? (v : Value) (name : String) : Except Failure (Option Value) :=
  match v with
  | .check c => .ok (functionAttribute? c.name name)
  | .union members =>
    .ok (if name == "members" || name == "_members" then some (.tuple members) else none)
  | .object _ (.decimal _) => .ok (if name == "real" then some v else none)
  | .object _ content => content.attribute? name
  | _ => .ok none

namespace Heap

/-- What reading an attribute finds: one of the value, else what its class gives it. -/
def attribute? (h : Heap) (v : Value) (name : String) : Except Failure (Option Value) :=
  (v.attribute? name).map fun read => read <|> h.inherited v name

/-- Whether reading an attribute finds something. -/
def hasAttribute (h : Heap) (v : Value) (name : String) : Bool :=
  (h.attribute? v name) matches .ok (some _)

/-- The columns of a frame whose names equal `name`: one as a series, several as a frame. -/
def column? (h : Heap) (columns : List (Value × ColumnKind × List Value))
    (index : Option (List Value)) (name : Value) : Option Value :=
  match columns.filter fun c => h.equal name c.1 with
  | [] => none
  | [(label, kind, cells)] => some (.object none (.series label kind cells index))
  | several => some (.object none (.frame several index))

def ownNames (h : Heap) (v : Value) : List Value :=
  match h.entries? v, v with
  | some entries, _ => entries.map Prod.fst
  | none, .object _ (.frame columns _) => columns.map Prod.fst
  | none, .object _ content => (content.ownNames (h.hasAttribute v)).map .str
  | none, .union _ => [.str "_members"]
  | none, _ => []

/-- Reads a property; one that is absent reads as undefined. -/
def property (h : Heap) (v name : Value) : Except Failure Value :=
  match h.entries? v, v with
  | some entries, _ => do
    name.asKey
    pure ((h.lookup name entries).getD .undefined)
  | none, .object _ (.frame columns index) => do
    name.asKey
    pure ((h.column? columns index name).getD .undefined)
  | none, _ =>
    match name.text? with
    | some text => (h.attribute? v text).map fun read => read.getD .undefined
    | none => .ok .undefined

end Heap

end Conform
