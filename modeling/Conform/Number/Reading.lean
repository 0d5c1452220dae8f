import Conform.Number.Double
import Conform.Text.Letter
/-!
Reading decimal text: plain digits, integers in any alphabet, and numbers with a fraction and an
exponent.
-/

set_option autoImplicit false

namespace Conform

def isDigit (c : Char) : Bool := '0' ≤ c && c ≤ '9'

def digitValue (c : Char) : Nat := c.toNat - '0'.toNat

def digitsValue (cs : List Char) : Nat := cs.foldl (fun n c => 10 * n + digitValue c) 0

def splitSign : List Char → Bool × List Char
  | '-' :: rest => (true, rest)
  | '+' :: rest => (false, rest)
  | cs => (false, cs)

/-! ## Integers -/

/-- The characters around an integer that are not part of it: the blanks but the four separators
of ASCII. -/
def isPadding (c : Char) : Bool := Text.blank.contains c && !(28 ≤ c.toNat && c.toNat ≤ 31)

/-- The values of decimal digits, any two of which may have a low line between them. -/
def readDigits? : List Char → Option (List Nat)
  | [] => none
  | [c] => (Text.decimalValue? c).map ([·])
  | c :: '_' :: rest => do pure ((← Text.decimalValue? c) :: (← readDigits? rest))
  | c :: rest => do pure ((← Text.decimalValue? c) :: (← readDigits? rest))

/-- Reads an integer: a sign and at most `digitLimit` digits, of any alphabet, with padding on
both sides. -/
def readInteger? (s : String) : Option Int := do
  let padded := (s.toList.dropWhile isPadding).reverse.dropWhile isPadding
  let (negative, body) := splitSign padded.reverse
  let digits ← readDigits? body
  guard (digits.length ≤ digitLimit)
  let size : Nat := digits.foldl (fun n d => 10 * n + d) 0
  pure (if negative then -(size : Int) else (size : Int))

/-! ## Decimal numbers -/

/-- A finite decimal number: `± digits · 10 ^ exponent`. Infinities and NaN are left out. -/
structure Decimal where
  negative : Bool
  digits : Nat
  exponent : Int
  deriving DecidableEq

/-- Reads `[±] digits [. digits] [e [±] digits]` with at least one digit before the exponent. -/
def Decimal.read? (s : String) : Option Decimal := do
  let (negative, body) := splitSign s.toList
  let whole := body.takeWhile isDigit
  let afterWhole := body.dropWhile isDigit
  let (fraction, afterFraction) := match afterWhole with
    | '.' :: rest => (rest.takeWhile isDigit, rest.dropWhile isDigit)
    | rest => ([], rest)
  guard (!whole.isEmpty || !fraction.isEmpty)
  let shift ← match afterFraction with
    | [] => some (0 : Int)
    | c :: rest =>
      let (below, power) := splitSign rest
      if (c = 'e' || c = 'E') && !power.isEmpty && power.all isDigit then
        some (if below then -(digitsValue power : Int) else digitsValue power)
      else none
  pure ⟨negative, digitsValue (whole ++ fraction), shift - fraction.length⟩

namespace Double

/-- Reads a decimal number, `nan`, or `inf` with a sign, rounding to nearest. -/
def readIn? (format : BinaryFormat) (s : String) : Option Double :=
  match s with
  | "nan" => some .nan
  | "inf" => some (.infinite false)
  | "-inf" => some (.infinite true)
  | _ => (Decimal.read? s).map fun d => ofDecimal format d.negative d.digits d.exponent

def read? (s : String) : Option Double := readIn? .wide s

end Double

end Conform
