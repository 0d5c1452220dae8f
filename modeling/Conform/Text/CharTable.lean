/-!
Sets of characters given by the code points at which membership changes.
-/

set_option autoImplicit false

namespace Conform.Text

/-- A set of code points: it begins empty at zero and changes at every listed boundary. -/
structure CharTable where
  boundaries : Array Nat

namespace CharTable

/-- How many of the first `hi` boundaries are at most `code`, found by halving the interval. -/
def rank (table : CharTable) (code : Nat) : Nat → Nat → Nat → Nat
  | 0, lo, _ => lo
  | steps + 1, lo, hi =>
    if lo < hi then
      let mid := (lo + hi) / 2
      if table.boundaries.getD mid 0 ≤ code then rank table code steps (mid + 1) hi
      else rank table code steps lo mid
    else lo

/-- A character is in the set when an odd number of boundaries lie at or before it. -/
def contains (table : CharTable) (c : Char) : Bool :=
  table.rank c.toNat 32 0 table.boundaries.size % 2 == 1

/-- How far a member is from the first of its run of members. -/
def offset (table : CharTable) (c : Char) : Nat :=
  c.toNat - table.boundaries.getD (table.rank c.toNat 32 0 table.boundaries.size - 1) 0

end CharTable

end Conform.Text
