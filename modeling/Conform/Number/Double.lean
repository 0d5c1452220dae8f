import Conform.Number.Exact
import Conform.Number.Power
/-!
Binary floating-point numbers held as exact dyadic values, and rounding to nearest.
-/

set_option autoImplicit false

namespace Conform

/-- A binary number `± mantissa · 2 ^ exponent`, an infinity, or not a number. -/
inductive Double where
  | nan
  | infinite (negative : Bool)
  | finite (negative : Bool) (mantissa : Nat) (exponent : Int)
  deriving DecidableEq

structure BinaryFormat where
  digits : Nat
  leastExponent : Int
  greatestExponent : Int

namespace BinaryFormat

def wide : BinaryFormat := ⟨53, -1074, 971⟩

def narrow : BinaryFormat := ⟨24, -149, 104⟩

end BinaryFormat

def powerOfTwo (e : Int) : Nat × Nat :=
  if 0 ≤ e then (twoTo e.toNat, 1) else (1, twoTo (-e).toNat)

/-- The integer nearest to `num / den`; of two equally near ones the even one. -/
def roundHalfEven (num den : Nat) : Nat :=
  let floor := num / den
  let twice := 2 * (num % den)
  if den < twice ∨ (twice = den ∧ floor % 2 = 1) then floor + 1 else floor

namespace Double

def zero (negative : Bool) : Double := .finite negative 0 0

/-- The exponent that gives `num / den` the format's full number of digits. -/
def scaleOf (format : BinaryFormat) (num den : Nat) : Int :=
  let guess : Int := (num.log2 : Int) - den.log2 - format.digits
  let (up, down) := powerOfTwo guess
  let full := if twoTo format.digits * (den * up) ≤ num * down then guess + 1 else guess
  max full format.leastExponent

/-- The number of the format nearest to `± num / den`; beyond the largest one, an infinity. -/
def nearest (format : BinaryFormat) (negative : Bool) (num den : Nat) : Double :=
  if num = 0 then zero negative
  else
    let scale := scaleOf format num den
    let (up, down) := powerOfTwo scale
    let rounded := roundHalfEven (num * down) (den * up)
    let (mantissa, exponent) :=
      if rounded = twoTo format.digits then (twoTo (format.digits - 1), scale + 1)
      else (rounded, scale)
    if format.greatestExponent < exponent then .infinite negative
    else if mantissa = 0 then zero negative
    else .finite negative mantissa exponent

/-- The nearest number to `± digits · 10 ^ exponent`, without building far-off powers. -/
def ofDecimal (format : BinaryFormat) (negative : Bool) (digits : Nat) (exponent : Int) :
    Double :=
  let magnitude : Int := (toString digits).length + exponent
  if digits = 0 then zero negative
  else if 400 < magnitude then .infinite negative
  else if magnitude < -400 then zero negative
  else if 0 ≤ exponent then nearest format negative (digits * tenTo exponent.toNat) 1
  else nearest format negative digits (tenTo (-exponent).toNat)

def exact : Double → Exact
  | .nan => .nan
  | .infinite negative => .infinite negative
  | .finite negative mantissa exponent =>
    let (up, down) := powerOfTwo exponent
    let size : Int := ((mantissa * up : Nat) : Int)
    .ratio (if negative then -size else size) down

def isFinite : Double → Bool
  | .finite .. => true
  | _ => false

/-- The sign bit, which zeros carry as well. -/
def isNegative : Double → Bool
  | .finite negative .. => negative
  | .infinite negative => negative
  | .nan => false

def toInt? (x : Double) : Option Int :=
  match x.exact with
  | .ratio num den => if num % den = 0 then some (num / den) else none
  | _ => none

end Double

end Conform
