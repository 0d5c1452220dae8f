import Conform.Mismatch
import Conform.Predicate.Call
import Conform.Predicate.Script
import Conform.Validation.Properties
import Conform.Validation.Trace
/-!
Matching values against schemas. A name matches by tag, a predicate by its answer, a pattern by
being found, an array item by item, a union by any member and an object property by property; the
first part that fails is reported with its path.
-/

set_option autoImplicit false

namespace Conform

/-- A validator at work: its options, whether they forbid undeclared properties, and its lane. -/
structure Validator where
  options : Options
  closed : Bool
  lane : Lane

namespace Validator

def ofOptions (h : Heap) (lane : Lane) (options : Options) : Except Failure Validator := do
  pure ⟨options, ← options.closed h, lane⟩

end Validator

/-- What schemas and values refer to: the shared containers, and what functions do, by their codes,
which are numbered from zero. -/
structure World where
  heap : Heap
  behaviours : Behaviours
  codes : Nat

structure Setting extends World where
  owner : Validator

/-- How a value is matched against `node`, which is reported as `known`. -/
abbrev Matcher := Validator → (known node value : Value) → Validation (Option Mismatch)

namespace Validator

def refuse (w : Validator) (known value : Value) : Validation Mismatch := do
  pure ⟨← Validation.here w.lane, value, known⟩

def verdict (w : Validator) (known value : Value) (passed : Bool) :
    Validation (Option Mismatch) :=
  if passed then pure none else some <$> w.refuse known value

end Validator

/-! ## Predicates -/

def Script.run (s : Setting) (again : Matcher) : Script → Validation Bool
  | .answer v => Validation.lift (s.heap.truth v)
  | .fail failure => Validation.fail failure
  | .test schema value options next => do
    let w ← Validation.lift (Validator.ofOptions s.heap .nested options)
    let mismatch ← Validation.apart (again w schema schema value)
    (next mismatch.isNone).run s again
  | .reenter schema value next => do
    let mismatch ← again s.owner schema schema value
    (next mismatch.isNone).run s again

/-- Calls a function with the value, and with the options if it takes both. -/
def callFunction (s : Setting) (again : Matcher) (w : Validator) (name : Option String)
    (className : String) (signature : Signature) (code : Nat) (value : Value) :
    Validation Bool := do
  let options := if signature.accepts 2 then some w.options else none
  let given : Given := ⟨value, options⟩
  match signature.misfit? given.count with
  | some misfit => Validation.fail (.misfit (name.getD (className ++ ".__call__")) misfit)
  | none =>
    Validation.record name value given.count
    (s.behaviours code given).run s again

/-! ## Arrays -/

/-- Matches item by item. The check for an item is the only one there is, or the one at its own
place among the checks, where there has to be one. -/
def matchItems (w : Validator) (known : Value) (checks : List (Value → Validation (Option Mismatch)))
    (items : List Value) : Validation (Option Mismatch) :=
  items.zipIdx.findSomeM? fun (item, i) => Validation.descend w.lane (.int i)
    (match checks[if checks.length = 1 then 0 else i]? with
      | some check => check item
      | none => Validation.fail (.noItem known))

/-- Matches an array against the checks of an array schema: any items match if there are none, and
several checks are for arrays of just so many items. -/
def matchArray (s : Setting) (w : Validator) (known value : Value)
    (checks : List (Value → Validation (Option Mismatch))) : Validation (Option Mismatch) :=
  match s.heap.items? value with
  | none => some <$> w.refuse known value
  | some items =>
    if checks.isEmpty then pure none
    else if 1 < checks.length ∧ checks.length ≠ items.length then some <$> w.refuse known value
    else matchItems w known checks items

/-- A pattern over bytes is found in nothing, and cannot be looked for in a text; all else that is
no schema is not matched. -/
def matchForeign (w : Validator) (known : Value) (content : Object) (value : Value) :
    Validation (Option Mismatch) :=
  match content with
  | .bytePattern _ =>
    if value.text?.isSome then Validation.fail .patternOfBytes else some <$> w.refuse known value
  | _ => Validation.fail (.unsupportedNode known)

/-! ## Schemas -/

def matchObject (s : Setting) (w : Validator) (known value : Value)
    (declared : List (Declared Validation Mismatch)) : Validation (Option Mismatch) :=
  if !value.isPlainObject || s.heap.isArray value then some <$> w.refuse known value
  else
    let read := fun name => Validation.lift (s.heap.property value name)
    if w.closed then
      matchClosed s.heap read (w.refuse known value) (s.heap.ownNames value) declared
    else matchOpen read declared

mutual

/-- Matches a value against `node`, which is reported as `known`; links and validations that
predicates start are left to `again`. -/
def matchNode (s : Setting) (again : Matcher) (w : Validator) (known : Value) :
    Value → Value → Validation (Option Mismatch)
  | .str atom, value => w.verdict known value (value.typeof == atom)
  | .check c, value => do
    let passed ← Validation.lift (c.holds value)
    w.verdict known value passed
  | .list members, value => matchArray s w known value (matchEach s again w members)
  | .tuple members, value => matchArray s w known value (matchEach s again w members)
  | .union members, value => do
    let passed ← matchAny s again w members value
    w.verdict known value passed
  | .mapping entries, value =>
    matchObject s w known value (declarations s again w entries)
  | .link address, value => again w (.link address) (s.heap.cell address) value
  | .object _ content, value => matchContent s again w known content value
  | .undefined, _ => Validation.fail (.unsupportedNode known)
  | .null, _ => Validation.fail (.unsupportedNode known)
  | .bool _, _ => Validation.fail (.unsupportedNode known)
  | .int _, _ => Validation.fail (.unsupportedNode known)
  | .float _, _ => Validation.fail (.unsupportedNode known)
termination_by structural node => node

/-- The checks by the members of an array schema. -/
def matchEach (s : Setting) (again : Matcher) (w : Validator) :
    List Value → List (Value → Validation (Option Mismatch))
  | [] => []
  | member :: members =>
    (fun item => matchNode s again w member member item) :: matchEach s again w members
termination_by structural members => members

/-- Whether a value matches any member; those after the first match are not tried. -/
def matchAny (s : Setting) (again : Matcher) (w : Validator) :
    List Value → Value → Validation Bool
  | [], _ => pure false
  | member :: members, value => do
    match ← matchNode s again w member member value with
    | none => pure true
    | some _ => matchAny s again w members value
termination_by structural members => members

def declarations (s : Setting) (again : Matcher) (w : Validator) :
    List (Value × Value) → List (Declared Validation Mismatch)
  | [] => []
  | (name, schema) :: rest =>
    ⟨name, fun read =>
      Validation.descend w.lane name (matchNode s again w schema schema read)⟩
      :: declarations s again w rest
termination_by structural entries => entries

def matchContent (s : Setting) (again : Matcher) (w : Validator) (known : Value) :
    Object → Value → Validation (Option Mismatch)
  | .strMember _ atom, value => w.verdict known value (value.typeof == atom)
  | .host f, value => do
    let passed ← Validation.lift (f.holds s.heap value)
    w.verdict known value passed
  | .function name className signature code _, value => do
    let passed ← callFunction s again w name className signature code value
    w.verdict known value passed
  | .pattern p, value => w.verdict known value ((value.text?.map p.search).getD false)
  | .set members, value => do
    let passed ← matchAny s again w members value
    w.verdict known value passed
  | .frozenSet members, value => do
    let passed ← matchAny s again w members value
    w.verdict known value passed
  | .proxy entries, value =>
    matchObject s w known value (declarations s again w entries)
  | content, value => matchForeign w known content value
termination_by structural content => content

end

/-- Matches with at most `depth` links and validations by predicates inside one another. -/
def matchWithin (s : Setting) : Nat → Matcher
  | 0 => fun _ _ _ _ => Validation.fail .endless
  | depth + 1 => matchNode s (matchWithin s depth)

end Conform
