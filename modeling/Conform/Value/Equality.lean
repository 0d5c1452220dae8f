import Conform.Failure
import Conform.Value.Kind
/-!
Equality of values, which disregards the kind of numbers and of texts, and the look-up of keys
by it.
-/

set_option autoImplicit false

namespace Conform

/-- Atoms that equal another value by what they stand for; `none` where structure decides. -/
def equalAtoms (v w : Value) : Option Bool :=
  match v.number?, w.number? with
  | some a, some b => some (a.eq b)
  | some _, none => some false
  | none, some _ => some false
  | none, none =>
    match v.text?, w.text? with
    | some s, some t => some (s == t)
    | some _, none => some false
    | none, some _ => some false
    | none, none =>
      match v.complex?, w.complex? with
      | some (a, b), some (c, d) => some (a.exact.eq c.exact && b.exact.eq d.exact)
      | some _, none => some false
      | none, some _ => some false
      | none, none => none

/-- Values equal without looking inside them: the same thing, or the same handle. -/
def sameThing : Value → Value → Bool
  | .undefined, .undefined => true
  | .null, .null => true
  | .check c, .check d => c == d
  | .object _ (.bytes a), .object _ (.bytes b) => a == b
  | .object _ (.symbol a _), .object _ (.symbol b _) => a == b
  | .object _ (.pattern p), .object _ (.pattern q) => p == q
  | .object _ (.bytePattern p), .object _ (.bytePattern q) => p == q
  | .object _ (.host f), .object _ (.host g) => f == g
  | .object (some i) _, .object (some j) _ => i == j
  | _, _ => false

def Value.setMembers? : Value → Option (List Value)
  | .object _ (.set members) => some members
  | .object _ (.frozenSet members) => some members
  | _ => none

mutual

/-- Equality, with links on the left compared by `onLink`. Sets are equal when they are of one
size and one holds the members of the other. -/
def equalWith (h : Heap) (onLink : Nat → Value → Bool) : Value → Value → Bool
  | .link a, w =>
    match w with
    | .link b => a == b || onLink a w
    | _ => onLink a w
  | .list xs, w =>
    match h.resolve w with
    | .list ys => equalLists h onLink xs ys
    | _ => false
  | .tuple xs, w =>
    match w with
    | .tuple ys => equalLists h onLink xs ys
    | _ => false
  | .union xs, w =>
    match w with
    | .union ys => equalLists h onLink xs ys
    | _ => false
  | .mapping xs, w =>
    match h.entries? w with
    | some ys => xs.length == ys.length && equalEntries h onLink xs ys
    | none => false
  | .object _ (.proxy xs), w =>
    match h.entries? w with
    | some ys => xs.length == ys.length && equalEntries h onLink xs ys
    | none => false
  | .object _ (.set xs), w =>
    match w.setMembers? with
    | some ys => xs.length == ys.length && subset h onLink xs ys
    | none => false
  | .object _ (.frozenSet xs), w =>
    match w.setMembers? with
    | some ys => xs.length == ys.length && subset h onLink xs ys
    | none => false
  | .object _ (.options a), w =>
    match w with
    | .object _ (.options b) => equalWith h onLink a b
    | _ => false
  | .object _ (.mismatch path actual expected), w =>
    match w with
    | .object _ (.mismatch path' actual' expected') =>
      equalLists h onLink path path' && equalWith h onLink actual actual'
        && equalWith h onLink expected expected'
    | _ => false
  | v, w => (equalAtoms v w).getD (sameThing v w)
termination_by structural v => v

def equalLists (h : Heap) (onLink : Nat → Value → Bool) : List Value → List Value → Bool
  | [], [] => true
  | x :: xs, y :: ys => equalWith h onLink x y && equalLists h onLink xs ys
  | _, _ => false
termination_by structural xs => xs

/-- Every entry has an equal one among `ys`. -/
def equalEntries (h : Heap) (onLink : Nat → Value → Bool) :
    List (Value × Value) → List (Value × Value) → Bool
  | [], _ => true
  | (k, v) :: xs, ys =>
    (match ys.find? fun y => equalWith h onLink k y.1 with
      | some (_, w) => equalWith h onLink v w
      | none => false) && equalEntries h onLink xs ys
termination_by structural xs => xs

def subset (h : Heap) (onLink : Nat → Value → Bool) : List Value → List Value → Bool
  | [], _ => true
  | x :: xs, ys => ys.any (equalWith h onLink x) && subset h onLink xs ys
termination_by structural xs => xs

end

namespace Heap

/-- Equality through at most `depth` links in a row. -/
def equalTo (h : Heap) : Nat → Value → Value → Bool
  | 0 => equalWith h fun _ _ => false
  | depth + 1 => equalWith h fun a w => equalTo h depth (h.cell a) w

def equal (h : Heap) (v w : Value) : Bool := h.equalTo (2 * h.size + 2) v w

/-- The entry whose key equals `key`. A NaN equals nothing and has no handle, so none is found under
it: each occurrence of a NaN counts as another object. -/
def find? (h : Heap) (key : Value) (entries : List (Value × Value)) : Option (Value × Value) :=
  entries.find? fun e => h.equal key e.1

def lookup (h : Heap) (key : Value) (entries : List (Value × Value)) : Option Value :=
  (h.find? key entries).map Prod.snd

def hasKey (h : Heap) (key : Value) (entries : List (Value × Value)) : Bool :=
  (h.find? key entries).isSome

/-- Puts a value under a key: in place of the old one if an equal key is there, else at the end.
The first of two equal keys stays. -/
def insert (h : Heap) (key value : Value) (entries : List (Value × Value)) :
    List (Value × Value) :=
  if h.hasKey key entries then
    entries.map fun e => if h.equal key e.1 then (e.1, value) else e
  else entries ++ [(key, value)]

def ofPairs (h : Heap) (pairs : List (Value × Value)) : List (Value × Value) :=
  pairs.foldl (fun entries e => h.insert e.1 e.2 entries) []

end Heap

/-! ## Keys -/

mutual

/-- A part for which a value can be no key, if there is one: mutable containers and tables. -/
def Value.unhashable? : Value → Option Value
  | .list items => some (.list items)
  | .mapping entries => some (.mapping entries)
  | .union members => some (.union members)
  | .link a => some (.link a)
  | .tuple items => firstUnhashable items
  | .object i (.set items) => some (.object i (.set items))
  | .object i (.proxy entries) => some (.object i (.proxy entries))
  | .object i (.series n k c x) => some (.object i (.series n k c x))
  | .object i (.frame c x) => some (.object i (.frame c x))
  | .object _ (.options flag) => flag.unhashable?
  | .object _ (.mismatch path actual expected) =>
    firstUnhashable path <|> actual.unhashable? <|> expected.unhashable?
  | _ => none

def firstUnhashable : List Value → Option Value
  | [] => none
  | v :: rest => v.unhashable? <|> firstUnhashable rest

end

def Value.asKey (v : Value) : Except Failure Unit :=
  match v.unhashable? with
  | some part => .error (.unhashable part)
  | none => .ok ()

end Conform
