import Conform.Failure
import Conform.Value.Kind
/-!
The built-in predicates.
-/

set_option autoImplicit false

namespace Conform

/-- The double nearest to a ratio; a ratio beyond all doubles has none. -/
def doubleOfRatio (num : Int) (den : Nat) : Except Failure Double :=
  match Double.nearest .wide (num < 0) num.natAbs den with
  | .infinite _ => .error .beyondFloat
  | x => .ok x

/-- Whether a value is a number without a fractional part; ratios are rounded to doubles first. -/
def Value.isInteger (v : Value) : Except Failure Bool :=
  if v.tag ≠ .number then .ok false
  else
    match v with
    | .object _ (.fraction num den) => do
      let x ← doubleOfRatio num den
      pure x.exact.isInteger
    | _ => .ok ((v.number?.map Exact.isInteger).getD false)

def Value.isPositive (v : Value) : Bool := (v.number?.map Exact.isPositive).getD false

def Check.holds (c : Check) (v : Value) : Except Failure Bool :=
  match c with
  | .null => match v with
    | .null => .ok true
    | _ => .ok false
  | .integer => v.isInteger
  | .positiveInteger => do
    if ← v.isInteger then pure v.isPositive else pure false
  | .plainObject => .ok v.isPlainObject
  | .table => match v with
    | .object _ (.frame _ _) => .ok true
    | _ => .ok false

namespace Check

def all : List Check := [.null, .integer, .positiveInteger, .plainObject, .table]

def ofName? (name : String) : Option Check := all.find? fun c => c.name == name

end Check

end Conform
