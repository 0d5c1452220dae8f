import Conform.Value.Equality
/-!
Schema documents. A document is a text for a type name, or a mapping with the members `type` and
`schema`: a tag, and what the tag calls for.
-/

set_option autoImplicit false

namespace Conform

inductive DocumentTag where
  | predicate
  | array
  | union
  | regexp
  | obj
  deriving DecidableEq

namespace DocumentTag

def name : DocumentTag → String
  | .predicate => "predicate"
  | .array => "array"
  | .union => "union"
  | .regexp => "regexp"
  | .obj => "obj"

def all : List DocumentTag := [.predicate, .array, .union, .regexp, .obj]

def ofValue? (h : Heap) (v : Value) : Option DocumentTag :=
  all.find? fun tag => h.equal v (.str tag.name)

end DocumentTag

namespace Document

def typeKey : Value := .str "type"

def schemaKey : Value := .str "schema"

def tagged (tag : DocumentTag) (payload : Value) : Value :=
  .mapping [(typeKey, .str tag.name), (schemaKey, payload)]

end Document

end Conform
