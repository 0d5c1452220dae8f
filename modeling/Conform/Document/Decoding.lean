import Conform.Document
import Conform.Predicate.Check
import Conform.Schema.Rendering
import Conform.Value.Unfolded
/-!
Schemas out of documents. A document that is no schema is refused at its first malformed node,
parents before their parts, with the location of that node.
-/

set_option autoImplicit false

namespace Conform.Document

/-- The predicates that documents may name: the built-in ones, and others that override them. -/
structure Registry where
  entries : List (Value × Value)

namespace Registry

def builtIn : List (Value × Value) := Check.all.map fun c => (.str c.name, .check c)

def extended (h : Heap) (others : List (Value × Value)) : Registry :=
  ⟨others.foldl (fun entries e => h.insert e.1 e.2 entries) builtIn⟩

def find? (h : Heap) (r : Registry) (name : Value) : Option Value :=
  match name.unhashable? with
  | some _ => none
  | none => h.lookup name r.entries

end Registry

def decodePattern (location : List DocumentStep) (source : String) : Except Failure Value :=
  match Pattern.ofSource source .off with
  | .ok pattern => .ok (.object none (.pattern pattern))
  | .error (.rejected complaint position) =>
    .error (.malformed location (.badPattern source (.rejected complaint position)))
  | .error fault => .error (.unusablePattern fault)

/-- The schema of a payload that has no parts of the kind that its tag calls for: a name or a
source, or a refusal. -/
def decodeFlat (h : Heap) (r : Registry) (location : List DocumentStep) (tagValue : Value)
    (tag : Option DocumentTag) (payload : Value) : Except Failure Value :=
  match tag with
  | none => .error (.malformed location (.unknownTag tagValue))
  | some .predicate =>
    match r.find? h payload with
    | some predicate => .ok predicate
    | none => .error (.malformed location (.unknownPredicate payload))
  | some .regexp =>
    match payload.text? with
    | some source => decodePattern location source
    | none => .error (.malformed location .sourceNotText)
  | some .obj => .error (.malformed location .notMapping)
  | some .array => .error (.malformed location (.notList tagValue))
  | some .union => .error (.malformed location (.notList tagValue))

mutual

/-- The schema of a document node at a location. -/
def decodeNode (h : Heap) (r : Registry) (location : List DocumentStep) :
    Value → Except Failure Value
  | .str name => .ok (.str name)
  | .list items => do pure (.list (← decodeItems h r location 0 items))
  | .mapping entries => decodeTagged h r location (.mapping entries) entries
  | .link _ => .error .endless
  | .object handle content => decodeObject h r location handle content
  | node => .error (.malformed location (.notTagged node))
termination_by structural node => node

def decodeItems (h : Heap) (r : Registry) (location : List DocumentStep) (i : Nat) :
    List Value → Except Failure (List Value)
  | [] => .ok []
  | node :: rest => do
    let first ← decodeNode h r (location ++ [.index i]) node
    let others ← decodeItems h r location (i + 1) rest
    pure (first :: others)
termination_by structural nodes => nodes

def decodeEntries (h : Heap) (r : Registry) (location : List DocumentStep) :
    List (Value × Value) → Except Failure (List (Value × Value))
  | [] => .ok []
  | (k, node) :: rest => do
    let first ← decodeNode h r (location ++ [.key (h.text k)]) node
    let others ← decodeEntries h r location rest
    pure ((k, first) :: others)
termination_by structural entries => entries

def decodeObject (h : Heap) (r : Registry) (location : List DocumentStep) (handle : Option Nat) :
    Object → Except Failure Value
  | .strMember member s => .ok (.object handle (.strMember member s))
  | .proxy entries => decodeTagged h r location (.object handle (.proxy entries)) entries
  | content => .error (.malformed location (.notTagged (.object handle content)))
termination_by structural content => content

/-- The schema of a node with these entries, which have to be a tag and a payload. -/
def decodeTagged (h : Heap) (r : Registry) (location : List DocumentStep) (node : Value) :
    List (Value × Value) → Except Failure Value
  | [(first, a), (second, b)] =>
    if h.equal first typeKey && h.equal second schemaKey then decodePayload h r location a b
    else if h.equal first schemaKey && h.equal second typeKey then decodePayload h r location b a
    else .error (.malformed location (.notTagged node))
  | _ => .error (.malformed location (.notTagged node))
termination_by structural entries => entries

def decodePayload (h : Heap) (r : Registry) (location : List DocumentStep) (tagValue : Value) :
    Value → Except Failure Value
  | .list items =>
    match DocumentTag.ofValue? h tagValue with
    | some .array => do pure (.list (← decodeItems h r location 0 items))
    | some .union => do pure (.union (← decodeItems h r location 0 items))
    | tag => decodeFlat h r location tagValue tag (.list items)
  | .mapping entries =>
    match DocumentTag.ofValue? h tagValue with
    | some .obj => do pure (.mapping (← decodeEntries h r location entries))
    | tag => decodeFlat h r location tagValue tag (.mapping entries)
  | .object handle content => decodePayloadObject h r location tagValue handle content
  | .link _ => .error .endless
  | payload => decodeFlat h r location tagValue (DocumentTag.ofValue? h tagValue) payload
termination_by structural payload => payload

def decodePayloadObject (h : Heap) (r : Registry) (location : List DocumentStep)
    (tagValue : Value) (handle : Option Nat) : Object → Except Failure Value
  | .proxy entries =>
    match DocumentTag.ofValue? h tagValue with
    | some .obj => do pure (.mapping (← decodeEntries h r location entries))
    | tag => decodeFlat h r location tagValue tag (.object handle (.proxy entries))
  | content =>
    decodeFlat h r location tagValue (DocumentTag.ofValue? h tagValue) (.object handle content)
termination_by structural content => content

end

/-- The schema of a document. -/
def decode (h : Heap) (r : Registry) (document : Value) : Except Failure Value :=
  decodeNode h r [] (h.unfold document)

end Conform.Document
