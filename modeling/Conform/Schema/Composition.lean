import Conform.Failure
import Conform.Value.Kind
/-!
Schemas made of schemas: unions, and the helpers for what may be absent or null.
-/

set_option autoImplicit false

namespace Conform

namespace Schema

def union (members : List Value) : Value := .union members

/-- Either undefined or as the schema says; a property of this kind may be absent. -/
def optional (schema : Value) : Value := union [.str Tag.undefined.name, schema]

def nullable (schema : Value) : Value := union [.check .null, schema]

def optionalNullable (schema : Value) : Value :=
  union [.check .null, .str Tag.undefined.name, schema]

end Schema

inductive Combinator where
  | union
  | optional
  | nullable
  | optionalNullable
  | plain
  deriving DecidableEq

namespace Combinator

def name : Combinator → String
  | .union => "union"
  | .optional => "optional"
  | .nullable => "nullable"
  | .optionalNullable => "optional_nullable"
  | .plain => "schema"

def parameter : Combinator → String
  | .union => "schemas"
  | .optional => "optional_schema"
  | .nullable => "nullable_schema"
  | .optionalNullable => "schema_"
  | .plain => "definition"

def ofOne : Combinator → Value → Value
  | .union, v => Schema.union [v]
  | .optional, v => Schema.optional v
  | .nullable, v => Schema.nullable v
  | .optionalNullable, v => Schema.optionalNullable v
  | .plain, v => v

/-- A union takes any number of schemas, the others exactly one. -/
def apply (c : Combinator) (args : List Value) : Except Failure Value :=
  match c, args with
  | .union, members => .ok (Schema.union members)
  | c, [v] => .ok (c.ofOne v)
  | c, [] => .error (.misfit c.name (.missing [c.parameter]))
  | c, args => .error (.misfit c.name (.tooMany 1 args.length))

end Combinator

end Conform
