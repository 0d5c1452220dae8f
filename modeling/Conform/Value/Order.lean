import Conform.Value.Equality
/-!
Order of values: numbers by size, texts by their characters, byte strings by their bytes, sets by
inclusion and tuples by their first difference. Values of other pairs of types stand in no order.
-/

set_option autoImplicit false

namespace Conform

/-- The exact value of a number that has a place among the others; complex numbers have none. -/
def Value.rank? (v : Value) : Option Exact :=
  match v with
  | .object _ (.complex _ _) => none
  | _ => v.number?

/-- One set holds all that the other holds, and more. -/
def setLess (h : Heap) (xs ys : List Value) : Bool :=
  decide (xs.length < ys.length) && xs.all fun x => ys.any (h.equal x)

def atomLess (h : Heap) (v w : Value) : Except Failure Bool :=
  match v.rank?, w.rank? with
  | some a, some b => .ok (a.lt b)
  | _, _ =>
    match v.text?, w.text? with
    | some s, some t => .ok (s < t)
    | _, _ =>
      match h.resolve v, h.resolve w with
      | .object _ (.bytes a), .object _ (.bytes b) => .ok (a < b)
      | _, _ =>
        match v.setMembers?, w.setMembers? with
        | some xs, some ys => .ok (setLess h xs ys)
        | _, _ => .error (.unordered v w)

mutual

def Heap.less (h : Heap) : Value → Value → Except Failure Bool
  | .tuple xs, .tuple ys => tupleLess h xs ys
  | v, w => atomLess h v w

/-- The first elements that are not equal decide; of two tuples that do not differ, the shorter
comes first. -/
def tupleLess (h : Heap) : List Value → List Value → Except Failure Bool
  | _, [] => .ok false
  | [], _ :: _ => .ok true
  | x :: xs, y :: ys => if h.equal x y then tupleLess h xs ys else Heap.less h x y

end

namespace Heap

/-- Puts a value into values that go down, behind those that are not less than it. -/
def insertDown (h : Heap) (v : Value) : List Value → Except Failure (List Value)
  | [] => .ok [v]
  | w :: rest => do
    if ← h.less v w then
      pure (w :: (← insertDown h v rest))
    else pure (v :: w :: rest)

def sortDown (h : Heap) : List Value → List Value → Except Failure (List Value)
  | sorted, [] => .ok sorted
  | sorted, v :: rest => do sortDown h (← h.insertDown v sorted) rest

def sorted (h : Heap) (values : List Value) : Except Failure (List Value) :=
  (h.sortDown [] values).map List.reverse

end Heap

end Conform
