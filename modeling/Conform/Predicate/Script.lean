import Conform.Options
/-!
What predicates do. A predicate answers, fails, or starts further validations first, each time
going on with whether the value passed.
-/

set_option autoImplicit false

namespace Conform

/-- The run of a predicate from some point on. -/
inductive Script where
  | answer (v : Value)
  | fail (failure : Failure)
  /-- Tests a value by a validation of its own. -/
  | test (schema value : Value) (options : Options) (next : Bool → Script)
  /-- Tests a value by the validator that the caller holds. -/
  | reenter (schema value : Value) (next : Bool → Script)

structure Given where
  value : Value
  options : Option Options

def Given.count (g : Given) : Nat := if g.options.isSome then 2 else 1

/-- What each predicate does, as a function of what it is given: predicates are taken to be pure,
so that neither the order of the calls nor their number matters to them. Others are the subject of
`Conform.Proofs.Matching.Recalling`. -/
abbrev Behaviours := Nat → Given → Script

/-! ## Simple bodies -/

inductive Body where
  | const (v : Value)
  | value
  | strict
  | both
  /-- Whether the value equals another one; for a table that is again a table. -/
  | equals (v : Value)
  | raise (kind message : String)
  | test (schema : Value)
  | reenter (schema : Value)

def Body.script (h : Heap) (b : Body) (g : Given) : Script :=
  match b with
  | .const v => .answer v
  | .value => .answer g.value
  | .strict => .answer ((g.options.map Options.noExcessProps).getD (.bool false))
  | .both => .answer (.bool g.options.isSome)
  | .equals v =>
    if g.value.isTable then .answer g.value
    else if v.isTable then .answer v
    else .answer (.bool (h.equal g.value v))
  | .raise kind message => .fail (.raised kind message)
  | .test schema =>
    .test schema g.value (g.options.getD Options.default) fun passed => .answer (.bool passed)
  | .reenter schema => .reenter schema g.value fun passed => .answer (.bool passed)

/-- The behaviours of a table of bodies; codes outside the table answer nothing. -/
def Body.behaviours (h : Heap) (bodies : Array Body) : Behaviours := fun code =>
  ((bodies[code]?).getD (.const .null)).script h

end Conform
