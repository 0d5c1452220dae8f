import Conform.Value.Property
/-!
Matching the properties of an object. Declared properties are checked in order up to the first
one that fails; a closed match also refuses objects that own anything else.
-/

set_option autoImplicit false

namespace Conform

structure Declared (m : Type → Type) (ρ : Type) where
  name : Value
  check : Value → m (Option ρ)

section Matching

variable {m : Type → Type} [Monad m] {ρ : Type}

/-- Checks what is read under each name, up to the first refusal. -/
def visitDeclared (read : Value → m Value) (declared : List (Declared m ρ)) : m (Option ρ) :=
  declared.findSomeM? fun d => do d.check (← read d.name)

def matchOpen (read : Value → m Value) (declared : List (Declared m ρ)) : m (Option ρ) :=
  visitDeclared read declared

def isDeclared (h : Heap) (declared : List (Declared m ρ)) (name : Value) : Bool :=
  declared.any fun d => h.equal name d.name

/-- Matches the declared properties and refuses owners of any other; an object that owns more
names than are declared is refused at once. -/
def matchClosed (h : Heap) (read : Value → m Value) (refuse : m ρ) (owned : List Value)
    (declared : List (Declared m ρ)) : m (Option ρ) := do
  if declared.length < owned.length then
    return some (← refuse)
  match ← visitDeclared read declared with
  | some refusal => return some refusal
  | none =>
    if owned.all (isDeclared h declared) then return none
    else return some (← refuse)

end Matching

end Conform
