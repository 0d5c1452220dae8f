import Conform.Failure
import Conform.Value.Kind
/-!
Truth of values: nothing, zeros and empty containers are false, all else is true, and tables have
no truth value.
-/

set_option autoImplicit false

namespace Conform

def Object.truth : Object → Bool
  | .bytes data => !data.isEmpty
  | .strMember _ s => !s.isEmpty
  | .complex re im => !(re.exact.isZero && im.exact.isZero)
  | .set items => !items.isEmpty
  | .frozenSet items => !items.isEmpty
  | .proxy entries => !entries.isEmpty
  | _ => true

namespace Heap

def truth (h : Heap) (v : Value) : Except Failure Bool :=
  match h.resolve v with
  | .undefined => .ok false
  | .null => .ok false
  | .str s => .ok (!s.isEmpty)
  | .list items => .ok (!items.isEmpty)
  | .tuple items => .ok (!items.isEmpty)
  | .mapping entries => .ok (!entries.isEmpty)
  | .union members => .ok (!members.isEmpty)
  | .object _ (.series _ _ _ _) => .error (.ambiguousTruth v)
  | .object _ (.frame _ _) => .error (.ambiguousTruth v)
  | w =>
    match w.number?, w with
    | some x, _ => .ok !x.isZero
    | none, .object _ content => .ok content.truth
    | none, _ => .ok true

end Heap

end Conform
