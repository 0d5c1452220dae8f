import Conform.Document
import Conform.Schema.Rendering
/-!
Schemas as documents. Type names stay as they are, predicates are known by their names and
patterns by their sources.
-/

set_option autoImplicit false

namespace Conform.Document

def ofPredicate (v : Value) : Value :=
  tagged .predicate (v.predicateName?.getD (.str ""))

mutual

/-- The document of a schema, with links left to `onLink`. -/
def encodeWith (h : Heap) (onLink : Nat → Except Failure Value) : Value → Except Failure Value
  | .str atom => .ok (.str atom)
  | .check c => .ok (ofPredicate (.check c))
  | .list items => do pure (tagged .array (.list (← encodeAll h onLink items)))
  | .tuple items => do pure (tagged .array (.list (← encodeAll h onLink items)))
  | .union members => do pure (tagged .union (.list (← encodeAll h onLink members)))
  | .mapping entries => do
    pure (tagged .obj (.mapping (h.ofPairs (← encodeEntries h onLink entries))))
  | .link address => onLink address
  | .object handle content => encodeObject h onLink handle content
  | v => .error (.unserialisableNode v)

def encodeAll (h : Heap) (onLink : Nat → Except Failure Value) :
    List Value → Except Failure (List Value)
  | [] => .ok []
  | v :: rest => do
    let first ← encodeWith h onLink v
    let others ← encodeAll h onLink rest
    pure (first :: others)

/-- Entries with their keys as texts, which may coincide. -/
def encodeEntries (h : Heap) (onLink : Nat → Except Failure Value) :
    List (Value × Value) → Except Failure (List (Value × Value))
  | [] => .ok []
  | (k, v) :: rest => do
    let key ← h.keyText k
    let first ← encodeWith h onLink v
    let others ← encodeEntries h onLink rest
    pure ((.str key, first) :: others)

def encodeObject (h : Heap) (onLink : Nat → Except Failure Value) (handle : Option Nat) :
    Object → Except Failure Value
  | .strMember member s => .ok (.object handle (.strMember member s))
  | .pattern p => .ok (tagged .regexp (.str p.source))
  | .bytePattern p => .ok (tagged .regexp (.object none (.bytes p.source)))
  | .set items => do pure (tagged .union (.list (← encodeAll h onLink items)))
  | .frozenSet items => do pure (tagged .union (.list (← encodeAll h onLink items)))
  | .proxy entries => do
    pure (tagged .obj (.mapping (h.ofPairs (← encodeEntries h onLink entries))))
  | content =>
    let v := Value.object handle content
    if v.isCallable then .ok (ofPredicate v) else .error (.unserialisableNode v)

end

/-- The document of a schema, through at most `links` links in a row. -/
def encodeThrough (h : Heap) : Nat → Value → Except Failure Value
  | 0 => encodeWith h fun _ => .error .endless
  | links + 1 => encodeWith h fun address => encodeThrough h links (h.cell address)

def encode (h : Heap) (schema : Value) : Except Failure Value :=
  encodeThrough h (h.size + 1) schema

end Conform.Document
