import Conform.Number.Power
import Conform.Number.Reading
/-!
Points in time, written as a date with an optional time of day, counted in nanoseconds since the
start of 1970.
-/

set_option autoImplicit false

namespace Conform.Instant

/-- Days from the start of 1970 to a date; years are counted from March, so that a leap day is
the last of its year. -/
def daysOf (year month day : Nat) : Int :=
  let y : Int := if month ≤ 2 then (year : Int) - 1 else year
  let m : Int := (((month + 9) % 12 : Nat) : Int)
  let leapDays := y.fdiv 4 - y.fdiv 100 + y.fdiv 400
  365 * y + leapDays + (153 * m + 2) / 5 + (day - 1) - 719468

def fieldBefore (mark : Char) (cs : List Char) : Nat × List Char :=
  (digitsValue ((cs.takeWhile (· ≠ mark)).filter isDigit), (cs.dropWhile (· ≠ mark)).drop 1)

def fractionOf (cs : List Char) : Nat :=
  let digits := (cs.takeWhile isDigit).take 9
  digitsValue digits * tenTo (9 - digits.length)

def clockOf (cs : List Char) : Nat :=
  let (hours, afterHours) := fieldBefore ':' cs
  let (minutes, afterMinutes) := fieldBefore ':' afterHours
  let (seconds, fraction) := fieldBefore '.' afterMinutes
  ((hours * 60 + minutes) * 60 + seconds) * tenTo 9 + fractionOf fraction

def nanoseconds (text : String) : Int :=
  let cs := text.toList
  let date := cs.takeWhile fun c => isDigit c || c == '-'
  let (year, afterYear) := fieldBefore '-' date
  let (month, afterMonth) := fieldBefore '-' afterYear
  let day := digitsValue afterMonth
  daysOf year (max month 1) (max day 1) * 86400 * tenTo 9 + clockOf (cs.drop (date.length + 1))

end Conform.Instant
