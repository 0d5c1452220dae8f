import Conform.Validation.Matching
/-!
Validating values. Each entry point works with a validator of its own; a session keeps one
validator for several steps.
-/

set_option autoImplicit false

namespace Conform

/-! ## Depth -/

structure Search (α : Type) where
  attempt : Nat → Option α

/-- The first answer from attempt number `n` on; there is none if no attempt gives one. -/
def Search.firstFrom {α : Type} (search : Search α) (n : Nat) : Option α :=
  match search.attempt n with
  | some a => some a
  | none => search |>.firstFrom (n + 1)
partial_fixpoint

namespace Validation

def ended? {α : Type} (out : Except Failure α × Trace) : Option (Except Failure α × Trace) :=
  match out.1 with
  | .error .endless => none
  | _ => some out

/-- Runs deeper and deeper, from a depth on, until a run is not cut short. A computation that
every depth cuts short is endless. -/
def deepening {α : Type} (run : Nat → Validation α) (depth : Nat) : Validation α := fun t =>
  ((Search.mk fun d => ended? (run d t)).firstFrom depth).getD (.error .endless, t)

end Validation

namespace Setting

/-- A depth of links and validations by predicates inside one another at which most runs end:
between two steps into the value at most every container and every function comes once. -/
def depthFor (s : Setting) (schema value : Value) : Nat :=
  (s.heap.size + s.codes + 2) * (s.heap.nodes + schema.nodes + value.nodes + 2)

/-- Matches a value against a schema by the validator that the caller holds. -/
def validate (s : Setting) (schema value : Value) : Validation (Option Mismatch) :=
  Validation.deepening (fun depth => matchWithin s depth s.owner schema schema value)
    (s.depthFor schema value)

def validateProperty (s : Setting) (name schema value : Value) : Validation (Option Mismatch) :=
  Validation.descend s.owner.lane name (s.validate schema value)

end Setting

namespace World

def setting (world : World) (options : Value) : Except Failure Setting := do
  let options ← Options.resolve world.heap options
  pure ⟨world, ← Validator.ofOptions world.heap .own options⟩

def validate (world : World) (schema value options : Value) : Validation (Option Mismatch) := do
  let s ← Validation.lift (world.setting options)
  s.validate schema value

/-- Whether a value matches a schema. -/
def test (world : World) (schema value options : Value) : Validation Bool := do
  pure (← world.validate schema value options).isNone

def validateOrFail (world : World) (schema value options : Value) : Validation Unit := do
  match ← world.validate schema value options with
  | some mismatch =>
    Validation.fail (.mismatch mismatch.path mismatch.actual mismatch.expected)
  | none => pure ()

/-- Visits the properties that an object schema declares, with what is read under each tested
against its schema by itself, and gives the names visited and the outcome: nothing, the name of
the property that failed, or a refusal of the object. -/
def visit (world : World) (closed : Bool) (schema value : Value) :
    Validation (List Value × Option (Option Value)) := do
  let entries := (world.heap.entries? schema).getD []
  let declared : List (Declared (StateT (List Value) Validation) (Option Value)) :=
    entries.map fun (name, part) => ⟨name, fun read => do
      modify (· ++ [name])
      let passed ← StateT.lift (world.test part read .null)
      pure (if passed then none else some (some name))⟩
  let read := fun name => StateT.lift (Validation.lift (world.heap.property value name))
  let visit :=
    if closed then
      matchClosed world.heap read (pure none) (world.heap.ownNames value) declared
    else matchOpen read declared
  let (outcome, visited) ← visit.run []
  pure (visited, outcome)

end World

/-! ## Sessions -/

inductive SessionStep where
  | validate (schema value : Value)
  | property (name schema value : Value)
  | mismatch (schema value : Value)

namespace SessionStep

def run (s : Setting) : SessionStep → Validation (Option Mismatch)
  | .validate schema value => s.validate schema value
  | .property name schema value => s.validateProperty name schema value
  | .mismatch schema value => some <$> s.owner.refuse schema value

end SessionStep

structure StepReport where
  result : Except Failure (Option Mismatch)
  calls : List Call
  pathAfter : List Value

/-- Runs the steps one after the other, from the path that the one before has left. -/
def runSession (s : Setting) : List Value → List SessionStep → List StepReport
  | _, [] => []
  | path, step :: steps =>
    let (result, t) := step.run s ⟨path, [], []⟩
    ⟨result, t.calls, t.path⟩ :: runSession s t.path steps

end Conform
