import Conform.Failure
import Conform.Value.Kind
/-!
Assigning to attributes of values that allow none.
-/

set_option autoImplicit false

namespace Conform

/-- Why an attribute cannot be set: options and mismatches are frozen, and a union has nothing
but its members, which can only be read. -/
def Heap.assignmentFailure (h : Heap) (v : Value) (field : String) : Failure :=
  match v with
  | .object _ (.options _) => .frozenField field
  | .object _ (.mismatch _ _ _) => .frozenField field
  | .union _ =>
    if field == "members" then .readOnlyProperty (h.typeName v) field
    else .noAttribute (h.typeName v) field
  | _ => .noAttribute (h.typeName v) field

end Conform
