/-!
Powers of the two bases in which numbers are written, and how long a number may be in a text.
-/

set_option autoImplicit false

namespace Conform

def twoTo (n : Nat) : Nat := Nat.pow 2 n

def tenTo (n : Nat) : Nat := Nat.pow 10 n

theorem tenTo_le {m n : Nat} (h : m ≤ n) : tenTo m ≤ tenTo n := Nat.pow_le_pow_right (by decide) h

/-- The most digits with which an integer is put into a text or read from one. -/
def digitLimit : Nat := 4300

def isOverlong (n : Int) : Bool := digitLimit < (Nat.toDigits 10 n.natAbs).length

theorem isOverlong_iff {n : Int} : isOverlong n = true ↔ tenTo digitLimit ≤ n.natAbs := by
  have hlength := Nat.length_toDigits_le_iff (b := 10) (n := n.natAbs) (k := digitLimit)
    (by decide) (by decide)
  rw [isOverlong, decide_eq_true_iff, ← Nat.not_le, hlength, Nat.not_lt, tenTo, Nat.pow_eq]

end Conform
