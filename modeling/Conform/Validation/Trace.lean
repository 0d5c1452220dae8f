import Conform.Failure
/-!
Computations of a validation: they keep the path to the value at hand and a record of the
predicates that were called, also when they fail.
-/

set_option autoImplicit false

namespace Conform

/-- A call of a predicate: its name, the value, how many arguments it received, and the path of
the validator at that moment. -/
structure Call where
  name : Option String
  value : Value
  arguments : Nat
  path : List Value

/-- Which validator is at work: the one that the caller holds, or one that a predicate made for
itself. -/
inductive Lane where
  | own
  | nested
  deriving DecidableEq

/-- The paths of both validators, from the root on, and the calls so far. -/
structure Trace where
  path : List Value
  inner : List Value
  calls : List Call

namespace Trace

def start : Trace := ⟨[], [], []⟩

def pathIn (t : Trace) : Lane → List Value
  | .own => t.path
  | .nested => t.inner

def setPath (t : Trace) (lane : Lane) (path : List Value) : Trace :=
  match lane with
  | .own => { t with path := path }
  | .nested => { t with inner := path }

def push (t : Trace) (lane : Lane) (step : Value) : Trace :=
  t.setPath lane (t.pathIn lane ++ [step])

def pop (t : Trace) (lane : Lane) : Trace := t.setPath lane (t.pathIn lane).dropLast

end Trace

def Validation (α : Type) : Type := Trace → Except Failure α × Trace

namespace Validation

protected def pure {α : Type} (a : α) : Validation α := fun t => (.ok a, t)

protected def bind {α β : Type} (x : Validation α) (f : α → Validation β) : Validation β :=
  fun t =>
    match x t with
    | (.ok a, t') => f a t'
    | (.error e, t') => (.error e, t')

instance : Monad Validation where
  pure := Validation.pure
  bind := Validation.bind

def fail {α : Type} (e : Failure) : Validation α := fun t => (.error e, t)

def lift {α : Type} : Except Failure α → Validation α
  | .ok a => pure a
  | .error e => fail e

/-- Runs one step further down and comes back, whatever happens there. -/
def descend {α : Type} (lane : Lane) (step : Value) (x : Validation α) : Validation α := fun t =>
  let (result, t') := x (t.push lane step)
  (result, t'.pop lane)

/-- Runs with a fresh inner path, and with the old one again afterwards. -/
def apart {α : Type} (x : Validation α) : Validation α := fun t =>
  let (result, t') := x { t with inner := [] }
  (result, { t' with inner := t.inner })

def here (lane : Lane) : Validation (List Value) := fun t => (.ok (t.pathIn lane), t)

def record (name : Option String) (value : Value) (arguments : Nat) : Validation Unit := fun t =>
  (.ok (), { t with calls := t.calls ++ [⟨name, value, arguments, t.path⟩] })

end Validation

end Conform
