/-!
Exact values of numbers, so that numbers of different kinds compare without rounding.
-/

set_option autoImplicit false

namespace Conform

/-- What a number stands for: a ratio with a positive denominator, an infinity, or nothing. -/
inductive Exact where
  | nan
  | infinite (negative : Bool)
  | ratio (num : Int) (den : Nat)

namespace Exact

def ofInt (n : Int) : Exact := .ratio n 1

/-- Equality of values; `nan` equals nothing, itself included. -/
def eq : Exact → Exact → Bool
  | .ratio a b, .ratio c d => a * d == c * b
  | .infinite s, .infinite t => s == t
  | _, _ => false

/-- Strict order of values; `nan` stands in no order. -/
def lt : Exact → Exact → Bool
  | .ratio a b, .ratio c d => a * d < c * b
  | .infinite s, .infinite t => s && !t
  | .infinite s, .ratio _ _ => s
  | .ratio _ _, .infinite t => !t
  | _, _ => false

def isZero : Exact → Bool
  | .ratio a _ => a == 0
  | _ => false

def isInteger : Exact → Bool
  | .ratio a b => a % b == 0
  | _ => false

def isPositive : Exact → Bool
  | .ratio a _ => 0 < a
  | .infinite negative => !negative
  | .nan => false

end Exact

end Conform
