import Conform.Number.Double
/-!
The shortest decimal text of a binary number: the fewest digits that read back, and of those the
nearest to the value.
-/

set_option autoImplicit false

namespace Conform

/-- Whether `a / b ≤ c / d`, or `<` when `strict`, for positive denominators. -/
def ratioBelow (strict : Bool) (a b c d : Nat) : Bool :=
  if strict then a * d < c * b else a * d ≤ c * b

def powerOfTen (e : Int) : Nat × Nat :=
  if 0 ≤ e then (tenTo e.toNat, 1) else (1, tenTo (-e).toNat)

def leadingExponent (num den : Nat) : Int :=
  let guess : Int := ((toString num).length : Int) - (toString den).length
  let (up, down) := powerOfTen guess
  if den * up ≤ num * down then guess else guess - 1

namespace Double

/-- The numbers that round to `mantissa · 2 ^ exponent`, in quarters of `2 ^ exponent`. The gap
below a power of two is half as wide, and the ends belong to even mantissas. -/
structure Interval where
  low : Nat
  high : Nat
  scale : Nat × Nat
  strict : Bool

def interval (format : BinaryFormat) (mantissa : Nat) (exponent : Int) : Interval :=
  let narrowBelow := mantissa = twoTo (format.digits - 1) ∧ format.leastExponent < exponent
  { low := 4 * mantissa - (if narrowBelow then 1 else 2)
    high := 4 * mantissa + 2
    scale := powerOfTwo (exponent - 2)
    strict := mantissa % 2 = 1 }

/-- Whether `digits · 10 ^ unit` lies in the interval. -/
def Interval.contains (i : Interval) (digits : Nat) (unit : Int) : Bool :=
  let (up, down) := powerOfTen unit
  ratioBelow i.strict (i.low * i.scale.1) i.scale.2 (digits * up) down &&
    ratioBelow i.strict (digits * up) down (i.high * i.scale.1) i.scale.2

/-- The grid point with unit `10 ^ unit` that lies in the interval and is nearest to
`num / den`. -/
def gridPoint? (i : Interval) (num den : Nat) (unit : Int) : Option Nat :=
  let (up, down) := powerOfTen unit
  let floor := num * down / (den * up)
  let twice := 2 * (num * down % (den * up))
  let belowIsNearer := twice < den * up ∨ (twice = den * up ∧ floor % 2 = 0)
  let (first, second) := if belowIsNearer then (floor, floor + 1) else (floor + 1, floor)
  if i.contains first unit then some first
  else if i.contains second unit then some second
  else none

def shortestFrom (i : Interval) (num den : Nat) : Nat → Int → Nat × Int
  | 0, unit => ((gridPoint? i num den unit).getD 0, unit)
  | left + 1, unit =>
    match gridPoint? i num den unit with
    | some digits => (digits, unit)
    | none => shortestFrom i num den left (unit - 1)

def trimZeros : Nat → Nat → Int → Nat × Int
  | 0, digits, unit => (digits, unit)
  | left + 1, digits, unit =>
    if digits ≠ 0 ∧ digits % 10 = 0 then trimZeros left (digits / 10) (unit + 1)
    else (digits, unit)

/-- The fewest digits, and the exponent of their last one, that read back as the number. -/
def shortest (format : BinaryFormat) (mantissa : Nat) (exponent : Int) : Nat × Int :=
  if mantissa = 0 then (0, 0)
  else
    let (up, down) := powerOfTwo exponent
    let num := mantissa * up
    let (digits, unit) :=
      shortestFrom (interval format mantissa exponent) num down 20 (leadingExponent num down)
    trimZeros 20 digits unit

/-- Digits with the point after the first `point` of them: positional from `1e-4` up to below
`1e16`, with an exponent of at least two digits otherwise. -/
def layout (digits : String) (point : Int) : String :=
  let count : Int := digits.length
  if -4 < point ∧ point ≤ 16 then
    if point ≤ 0 then "0." ++ "".pushn '0' (-point).toNat ++ digits
    else if count ≤ point then digits ++ "".pushn '0' (point - count).toNat ++ ".0"
    else (digits.take point.toNat).toString ++ "." ++ (digits.drop point.toNat).toString
  else
    let power := point - 1
    let size := toString power.natAbs
    let fraction := (digits.drop 1).toString
    (digits.take 1).toString ++ (if fraction.isEmpty then "" else "." ++ fraction) ++ "e"
      ++ (if power < 0 then "-" else "+") ++ (if size.length < 2 then "0" ++ size else size)

def textIn (format : BinaryFormat) : Double → String
  | .nan => "nan"
  | .infinite negative => if negative then "-inf" else "inf"
  | .finite negative mantissa exponent =>
    let (digits, unit) := shortest format mantissa exponent
    let shown := toString digits
    (if negative then "-" else "") ++ layout shown (shown.length + unit)

def text (x : Double) : String := x.textIn .wide

end Double

end Conform
