import Conform.Value.Basic
/-!
Values without links: shared containers are copied to every place that links to them.
-/

set_option autoImplicit false

namespace Conform

mutual

def unfoldWith (onLink : Nat → Value) : Value → Value
  | .list items => .list (unfoldAll onLink items)
  | .tuple items => .tuple (unfoldAll onLink items)
  | .mapping entries => .mapping (unfoldEntries onLink entries)
  | .union members => .union (unfoldAll onLink members)
  | .link address => onLink address
  | .object handle content => .object handle (unfoldObject onLink content)
  | v => v

def unfoldAll (onLink : Nat → Value) : List Value → List Value
  | [] => []
  | v :: rest => unfoldWith onLink v :: unfoldAll onLink rest

def unfoldEntries (onLink : Nat → Value) : List (Value × Value) → List (Value × Value)
  | [] => []
  | (k, v) :: rest => (k, unfoldWith onLink v) :: unfoldEntries onLink rest

def unfoldObject (onLink : Nat → Value) : Object → Object
  | .proxy entries => .proxy (unfoldEntries onLink entries)
  | content => content

end

namespace Heap

/-- A value with links replaced inside the containers `opened`; a link to one of them stays. -/
def unfoldInside (h : Heap) : Nat → List Nat → Value → Value
  | 0, _ => unfoldWith .link
  | depth + 1, opened => unfoldWith fun address =>
    if opened.contains address then .link address
    else unfoldInside h depth (address :: opened) (h.cell address)

/-- A value without links, except for those from inside a container to itself. -/
def unfold (h : Heap) (v : Value) : Value := h.unfoldInside (h.size + 1) [] v

end Heap

end Conform
