import Conform.Value.Json
/-!
# Open containers

All of the traversal that makes JSON of a value shares one set of open containers: a link adds its
container to the set before it goes on, and takes it out again afterwards. Each call leaves the set
as it found it, also where it finds no JSON. So what a link finds hangs on nothing but the
containers that it is in. Main statement: `openJson_finds`.
-/

set_option autoImplicit false

namespace Conform

/-! ## Computations that leave the set as it was -/

/-- What a computation finds is told by the open containers, and these are open again after it. -/
def Opening.Finds {α : Type} (x : Opening α) (found : List Nat → Option α) : Prop :=
  ∀ opened, x opened = (found opened, opened)

namespace Opening.Finds

variable {α β : Type}

theorem pure (a : α) : (Pure.pure a : Opening α).Finds fun _ => some a := fun _ => rfl

theorem lift (found : Option α) : (Opening.lift found).Finds fun _ => found := fun _ => rfl

theorem bind {x : Opening α} {f : α → Opening β} {found : List Nat → Option α}
    {next : α → List Nat → Option β} (hx : x.Finds found) (hf : ∀ a, (f a).Finds (next a)) :
    (x >>= f).Finds fun opened => (found opened).bind fun a => next a opened := by
  intro opened
  show Opening.bind x f opened = ((found opened).bind fun a => next a opened, opened)
  rw [Opening.bind, hx opened]
  cases found opened with
  | none => rfl
  | some a => exact hf a opened

/-- What was added is what is taken out. -/
theorem within {x : Opening α} {found : List Nat → Option α} (hx : x.Finds found) (a : Nat) :
    (Opening.within a x).Finds fun opened =>
      if opened.contains a then none else found (a :: opened) := by
  intro opened
  show Opening.within a x opened =
    (if opened.contains a then none else found (a :: opened), opened)
  rw [Opening.within, hx (a :: opened)]
  cases opened.contains a with
  | true => rfl
  | false => exact congrArg (Prod.mk (found (a :: opened))) (List.erase_cons_head a opened)

end Opening.Finds

/-! ## JSON inside open containers -/

mutual

/-- The JSON of a value, where `onLink` says what is found at links. -/
def jsonWith (h : Heap) (onLink : Nat → Option Json) : Value → Option Json
  | .undefined => none
  | .null => some .null
  | .bool b => some (.bool b)
  | .int n => integerJson? n
  | .float x => some x.toJson
  | .str s => some (.str s)
  | .list items => (jsonItems h onLink items).map .array
  | .tuple items => (jsonItems h onLink items).map .array
  | .mapping entries => (jsonMembers h onLink entries).map .object
  | .link address => onLink address
  | .object _ content => content.json? h
  | .check _ => none
  | .union _ => none

def jsonItems (h : Heap) (onLink : Nat → Option Json) : List Value → Option (List Json)
  | [] => some []
  | .undefined :: rest => (jsonItems h onLink rest).map (.null :: ·)
  | v :: rest => do
    let item ← jsonWith h onLink v
    let items ← jsonItems h onLink rest
    pure (item :: items)

def jsonMembers (h : Heap) (onLink : Nat → Option Json) :
    List (Value × Value) → Option (List (String × Json))
  | [] => some []
  | (_, .undefined) :: rest => jsonMembers h onLink rest
  | (k, v) :: rest => do
    let key ← k.jsonKey?
    let value ← jsonWith h onLink v
    let members ← jsonMembers h onLink rest
    pure ((key, value) :: members)

end

/-- The JSON of a value inside the containers `opened`, none of which may come again. -/
def Heap.jsonInside (h : Heap) : Nat → List Nat → Value → Option Json
  | 0, _ => jsonWith h fun _ => none
  | depth + 1, opened => jsonWith h fun address =>
    if opened.contains address then none
    else jsonInside h depth (address :: opened) (h.cell address)

section

variable (h : Heap) {onLink : Nat → Opening Json} {found : Nat → List Nat → Option Json}

mutual

/-- What leaves the set as it was at links leaves it so everywhere. -/
theorem openJsonWith_finds (hlink : ∀ a, (onLink a).Finds (found a)) : ∀ v : Value,
    (openJsonWith h onLink v).Finds fun opened => jsonWith h (fun a => found a opened) v
  | .undefined => .lift none
  | .null => .pure _
  | .bool _ => .pure _
  | .int n => .lift (integerJson? n)
  | .float _ => .pure _
  | .str _ => .pure _
  | .list items => by
    simp only [openJsonWith, jsonWith, Option.map_eq_bind]
    exact (openJsonItems_finds hlink items).bind fun _ => .pure _
  | .tuple items => by
    simp only [openJsonWith, jsonWith, Option.map_eq_bind]
    exact (openJsonItems_finds hlink items).bind fun _ => .pure _
  | .mapping entries => by
    simp only [openJsonWith, jsonWith, Option.map_eq_bind]
    exact (openJsonMembers_finds hlink entries).bind fun _ => .pure _
  | .link a => hlink a
  | .object _ content => .lift (content.json? h)
  | .check _ => .lift none
  | .union _ => .lift none

theorem openJsonItems_finds (hlink : ∀ a, (onLink a).Finds (found a)) : ∀ items : List Value,
    (openJsonItems h onLink items).Finds fun opened => jsonItems h (fun a => found a opened) items
  | [] => .pure []
  | item :: items => by
    have hitems := openJsonItems_finds hlink items
    by_cases habsent : item = .undefined
    · subst habsent
      simp only [openJsonItems, jsonItems, Option.map_eq_bind]
      exact hitems.bind fun _ => .pure _
    · simp only [openJsonItems, jsonItems]
      exact (openJsonWith_finds hlink item).bind fun _ => hitems.bind fun _ => .pure _

theorem openJsonMembers_finds (hlink : ∀ a, (onLink a).Finds (found a)) :
    ∀ entries : List (Value × Value),
      (openJsonMembers h onLink entries).Finds fun opened =>
        jsonMembers h (fun a => found a opened) entries
  | [] => .pure []
  | (key, v) :: entries => by
    have hentries := openJsonMembers_finds hlink entries
    by_cases habsent : v = .undefined
    · subst habsent
      exact hentries
    · simp only [openJsonMembers, jsonMembers]
      exact (Opening.Finds.lift key.jsonKey?).bind fun _ =>
        (openJsonWith_finds hlink v).bind fun _ => hentries.bind fun _ => .pure _

end

end

/-- By induction on how many links may be inside one another: the traversal finds the JSON inside
the containers that are open, and leaves just these open. -/
theorem openJson_finds (h : Heap) (depth : Nat) (v : Value) :
    (h.openJson depth v).Finds fun opened => h.jsonInside depth opened v := by
  induction depth generalizing v with
  | zero => exact openJsonWith_finds h (fun _ => .lift none) v
  | succ depth ih =>
    exact openJsonWith_finds h (fun address => .within (ih (h.cell address)) address) v

theorem json?_eq (h : Heap) (v : Value) : h.json? v = h.jsonInside (h.size + 1) [] v :=
  congrArg Prod.fst (openJson_finds h (h.size + 1) v [])

end Conform
