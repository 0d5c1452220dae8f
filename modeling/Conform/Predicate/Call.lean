import Conform.Predicate.Check
import Conform.Value.Truth
import Conform.Value.Written
/-!
Calling predicates: a predicate receives the value and the options if it takes two arguments by
position, and the value alone otherwise.
-/

set_option autoImplicit false

namespace Conform

namespace Signature

def misfit? (s : Signature) (given : Nat) : Option Misfit :=
  if s.required.length + s.optional < given && !s.variadic then
    some (.tooMany (s.required.length + s.optional) given)
  else if given < s.required.length then some (.missing (s.required.drop given))
  else if !s.keywords.isEmpty then some (.missingKeywords s.keywords)
  else none

def accepts (s : Signature) (given : Nat) : Bool := (s.misfit? given).isNone

end Signature

namespace Heap

def length (h : Heap) (v : Value) : Except Failure Nat :=
  match h.resolve v with
  | .str s => .ok s.length
  | .list items => .ok items.length
  | .tuple items => .ok items.length
  | .mapping entries => .ok entries.length
  | .union members => .ok members.length
  | .object _ (.strMember _ s) => .ok s.length
  | .object _ (.bytes data) => .ok data.length
  | .object _ (.set items) => .ok items.length
  | .object _ (.frozenSet items) => .ok items.length
  | .object _ (.proxy entries) => .ok entries.length
  | .object _ (.series _ _ cells _) => .ok cells.length
  | .object _ (.frame columns index) =>
    .ok (match index, columns with
      | some labels, _ => labels.length
      | none, (_, _, cells) :: _ => cells.length
      | none, [] => 0)
  | _ => .error (.noLength v)

end Heap

def HostFunction.holds (f : HostFunction) (h : Heap) (v : Value) : Except Failure Bool :=
  match f with
  | .length => do pure ((← h.length v) != 0)
  | .truth => h.truth v
  | .callable => .ok v.isCallable
  | .text => .ok !(h.plain v).isEmpty

end Conform
