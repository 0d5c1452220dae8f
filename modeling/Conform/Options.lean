import Conform.Value.Order
import Conform.Value.Truth
/-!
Options of a validation: whether objects may own properties that their schema does not declare.
-/

set_option autoImplicit false

namespace Conform

/-- The flag that forbids undeclared properties. Where it counts, its truth decides. -/
structure Options where
  noExcessProps : Value

namespace Options

def default : Options := ⟨.bool false⟩

def optionName : String := "no_excess_props"

def toValue (o : Options) : Value := .object none (.options o.noExcessProps)

def closed (h : Heap) (o : Options) : Except Failure Bool := h.truth o.noExcessProps

/-- The options that a mapping names: only known names, and only with truth values. -/
def ofEntries (h : Heap) (entries : List (Value × Value)) : Except Failure Options := do
  let unknown := (entries.map Prod.fst).filter fun name => !h.equal name (.str optionName)
  if !unknown.isEmpty then
    throw (.unknownOptions (← h.sorted unknown))
  let offending := entries.filter fun
    | (_, .bool _) => false
    | _ => true
  if !offending.isEmpty then
    throw (.nonBooleanOptions (← h.sorted (offending.map Prod.fst)))
  match entries with
  | (_, flag) :: _ => pure ⟨flag⟩
  | [] => pure default

/-- The options that a caller means: none for the usual ones, an options object for itself, or a
mapping of names. -/
def resolve (h : Heap) (v : Value) : Except Failure Options :=
  match v with
  | .null => .ok default
  | .object _ (.options flag) => .ok ⟨flag⟩
  | _ =>
    match h.entries? v with
    | some entries => ofEntries h entries
    | none => .error (.unsupportedOptions v)

end Options

end Conform
