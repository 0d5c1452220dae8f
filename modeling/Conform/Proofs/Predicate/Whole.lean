import Conform.Predicate.Check
import Conform.Proofs.Number.Rounding
import Mathlib.Algebra.Order.Field.Basic
/-!
# Whole numbers

Which values the predicates for integers and for positive integers accept. Numbers of all kinds are
judged by their exact values, except fractions: these are judged by the double that is nearest, so
that some are accepted which are only near to a whole number, and beyond the largest double there is
no answer. Main statement: `integer_checks`.
-/

set_option autoImplicit false

namespace Conform

/-! ## Numbers -/

namespace Value

/-- The rational number that a real number of any kind stands for; infinities stand for none. -/
def rational? : Value → Option ℚ
  | .int n => some n
  | .float x => x.rational?
  | .object _ (.machine (.int64 n)) => some n
  | .object _ (.machine (.uint64 n)) => some n
  | .object _ (.machine (.float32 x)) => x.rational?
  | .object _ (.machine (.float64 x)) => x.rational?
  | .object _ (.fraction num den) => some (num / den)
  | .object _ (.intMember _ n) => some n
  | _ => none

/-- Fractions are kept with positive denominators. -/
def HasDenominator : Value → Prop
  | .object _ (.fraction _ den) => 0 < den
  | _ => True

def fraction? : Value → Option ℚ
  | .object _ (.fraction num den) => some (num / den)
  | _ => none

/-- A fraction that no double is near to. -/
def BeyondDoubles (v : Value) : Prop :=
  ∃ q, v.fraction? = some q ∧ 2 ^ 1024 - 2 ^ 970 ≤ |q|

/-- A fraction that is near to a whole number. -/
def NearWhole (v : Value) : Prop :=
  ∃ q, v.fraction? = some q ∧ BinaryFormat.wide.NearWhole q

/-- Whatever is called a number has an exact value, or is infinite or not a number. -/
theorem exists_exact {v : Value} (number : v.tag = .number) (hv : v.HasDenominator) :
    ∃ x : Exact, v.number? = some x ∧ x.rational? = v.rational? ∧ x.HasDenominator := by
  have ofInt (n : ℤ) :
      (Exact.ofInt n).rational? = some (n : ℚ) ∧ (Exact.ofInt n).HasDenominator := by
    refine ⟨?_, one_pos⟩
    rw [Exact.ofInt, Exact.rational?, Nat.cast_one, div_one]
  have ofDouble (x : Double) : x.exact.rational? = x.rational? ∧ x.exact.HasDenominator :=
    ⟨x.rational?_exact, x.hasDenominator_exact⟩
  cases v with
  | int n => exact ⟨_, rfl, ofInt n⟩
  | float x => exact ⟨_, rfl, ofDouble x⟩
  | object handle content =>
    cases content with
    | machine x =>
      cases x with
      | int64 n => exact ⟨_, rfl, ofInt n⟩
      | uint64 n => exact ⟨_, rfl, ofInt n⟩
      | float32 x => exact ⟨_, rfl, ofDouble x⟩
      | float64 x => exact ⟨_, rfl, ofDouble x⟩
      | _ => cases number
    | fraction num den => exact ⟨_, rfl, rfl, hv⟩
    | intMember _ n => exact ⟨_, rfl, ofInt n⟩
    | _ => cases number
  | _ => cases number

end Value

/-! ## Fractions -/

theorem wide_limit : BinaryFormat.wide.limit = 2 ^ 1024 - 2 ^ 970 := by
  show (2 : ℚ) ^ ((1024 : ℕ) : ℤ) - 2 ^ ((970 : ℕ) : ℤ) = _
  rw [zpow_natCast, zpow_natCast]

theorem isWhole_signed (negative : Bool) (y : ℚ) :
    IsWhole (if negative then -y else y) ↔ IsWhole y := by
  have flip {y : ℚ} (hy : IsWhole y) : IsWhole (-y) := by
    obtain ⟨n, rfl⟩ := hy
    exact ⟨-n, (Int.cast_neg n).symm⟩
  cases negative with
  | false => exact Iff.rfl
  | true => exact ⟨fun hy => neg_neg y ▸ flip hy, flip⟩

theorem doubleOfRatio_of_rational {num : ℤ} {den : ℕ} {y : ℚ}
    (hy : (Double.nearest .wide (num < 0) num.natAbs den).rational? = some y) :
    ∃ x : Double, doubleOfRatio num den = .ok x ∧ x.rational? = some y := by
  unfold doubleOfRatio
  cases hx : Double.nearest .wide (num < 0) num.natAbs den with
  | nan => exact ⟨_, rfl, hx ▸ hy⟩
  | infinite negative =>
    rw [hx] at hy
    cases hy
  | finite negative mantissa exponent => exact ⟨_, rfl, hx ▸ hy⟩

/-- The sign is put aside; a ratio that is zero is not rounded at all. -/
theorem doubleOfRatio_cases (num : ℤ) {den : ℕ} (hden : 0 < den) :
    ((2 : ℚ) ^ 1024 - 2 ^ 970 ≤ |(num / den : ℚ)| ∧
      doubleOfRatio num den = .error .beyondFloat) ∨
    (¬ (2 : ℚ) ^ 1024 - 2 ^ 970 ≤ |(num / den : ℚ)| ∧ ∃ x : Double, doubleOfRatio num den = .ok x ∧
      (x.exact.isInteger = true ↔ BinaryFormat.wide.NearWhole (num / den))) := by
  have hsize : |(num / den : ℚ)| = num.natAbs / den := by
    rw [abs_div, Nat.abs_cast, Nat.cast_natAbs, Int.cast_abs]
  by_cases hzero : num = 0
  · subst hzero
    have hwhole : IsWhole ((0 : ℤ) / den : ℚ) := ⟨0, by rw [Int.cast_zero, zero_div]⟩
    refine .inr ⟨?_, Double.zero false, rfl, iff_of_true rfl ?_⟩
    · rw [Int.cast_zero, zero_div, abs_zero, not_le, sub_pos]
      exact pow_lt_pow_right₀ one_lt_two (by omega)
    · exact BinaryFormat.nearWhole_of_isWhole hwhole
  · have hnum : 0 < num.natAbs := Int.natAbs_pos.mpr hzero
    have hnear : BinaryFormat.wide.NearWhole (num.natAbs / den) ↔
        BinaryFormat.wide.NearWhole (num / den) := by
      rcases eq_or_eq_neg_of_abs_eq hsize with hq | hq
      · rw [hq]
      · rw [hq, BinaryFormat.nearWhole_neg]
    rw [hsize, ← wide_limit]
    rcases Double.nearest_of_pos BinaryFormat.usual_wide (decide (num < 0)) hnum hden with
      ⟨hlimit, hx⟩ | ⟨hlimit, y, hy, hwhole⟩
    · refine .inl ⟨hlimit, ?_⟩
      rw [doubleOfRatio, hx]
    · obtain ⟨x, hx, hrational⟩ := doubleOfRatio_of_rational hy
      refine .inr ⟨not_le.mpr hlimit, x, hx, ?_⟩
      rw [Double.isInteger_exact_iff hrational, isWhole_signed, hwhole, hnear]

/-! ## The predicates -/

section

variable {v : Value}

theorem exists_fraction {q : ℚ} (hq : v.fraction? = some q) :
    ∃ handle num den, v = .object handle (.fraction num den) ∧ q = num / den := by
  unfold Value.fraction? at hq
  split at hq
  · next handle num den => exact ⟨handle, num, den, rfl, (Option.some.inj hq).symm⟩
  · cases hq

theorem rational?_of_fraction {q : ℚ} (hq : v.fraction? = some q) : v.rational? = some q := by
  obtain ⟨handle, num, den, rfl, rfl⟩ := exists_fraction hq
  rfl

theorem isInteger_fraction (handle : Option Nat) (num : ℤ) (den : ℕ) :
    (Value.object handle (.fraction num den)).isInteger
      = (doubleOfRatio num den).map fun x => x.exact.isInteger := by
  have number : (Value.object handle (.fraction num den)).tag = .number := rfl
  rw [Value.isInteger, if_neg (not_not_intro number)]
  cases doubleOfRatio num den <;> rfl

theorem isInteger_exact (number : v.tag = .number) (other : v.fraction? = none) :
    v.isInteger = .ok ((v.number?.map Exact.isInteger).getD false) := by
  rw [Value.isInteger, if_neg (not_not_intro number)]
  intro handle num den heq
  rw [heq] at other
  cases other

/-- Fractions are asked for their nearest double, and other numbers for their exact value. -/
theorem isInteger_cases (hv : v.HasDenominator) :
    (v.BeyondDoubles ∧ v.isInteger = .error .beyondFloat) ∨
    (¬ v.BeyondDoubles ∧ ∃ whole : Bool, v.isInteger = .ok whole ∧
      (whole = true ↔
        v.tag = .number ∧ ((∃ q, v.rational? = some q ∧ IsWhole q) ∨ v.NearWhole))) := by
  cases hfraction : v.fraction? with
  | some q =>
    obtain ⟨handle, num, den, rfl, rfl⟩ := exists_fraction hfraction
    have hrational := rational?_of_fraction hfraction
    have number : (Value.object handle (.fraction num den)).tag = .number := rfl
    simp only [isInteger_fraction, Value.BeyondDoubles, Value.NearWhole, hfraction, hrational,
      number, Option.some.injEq, exists_eq_left', true_and]
    rcases doubleOfRatio_cases num hv with ⟨hbeyond, hx⟩ | ⟨hbelow, x, hx, hnear⟩
    · rw [hx]
      exact .inl ⟨hbeyond, rfl⟩
    · rw [hx]
      refine .inr ⟨hbelow, x.exact.isInteger, rfl, hnear.trans ?_⟩
      exact (or_iff_right_of_imp BinaryFormat.nearWhole_of_isWhole).symm
  | none =>
    simp only [Value.BeyondDoubles, Value.NearWhole, hfraction]
    refine .inr ⟨by simp, ?_⟩
    by_cases number : v.tag = .number
    · obtain ⟨x, hx, hrational, hdenominator⟩ := Value.exists_exact number hv
      refine ⟨x.isInteger, ?_, ?_⟩
      · rw [isInteger_exact number hfraction, hx]
        rfl
      · rw [Exact.isInteger_iff hdenominator, hrational]
        simp [number]
    · exact ⟨false, if_pos number, by simp [number]⟩

theorem positiveInteger_holds (v : Value) :
    Check.positiveInteger.holds v = v.isInteger.map fun whole => whole && v.isPositive := by
  unfold Check.holds
  cases v.isInteger with
  | error failure => rfl
  | ok whole => cases whole <;> rfl

theorem isPositive_iff (number : v.tag = .number) (hv : v.HasDenominator)
    (hrational : ∃ q, v.rational? = some q) :
    v.isPositive = true ↔ ∃ q, v.rational? = some q ∧ 0 < q := by
  obtain ⟨q, hq⟩ := hrational
  obtain ⟨x, hx, heq, hdenominator⟩ := Value.exists_exact number hv
  have hpositive : v.isPositive = x.isPositive := by
    rw [Value.isPositive, hx]
    rfl
  rw [hpositive, Exact.isPositive_iff hdenominator (heq.trans hq), hq]
  simp

end

/-- Both predicates raise just for fractions that no double is near to. For any other value, the
first says whether it is a number and whole, or a fraction near to a whole number; the second says
whether the first does and the value is positive. -/
theorem integer_checks {v : Value} (hv : v.HasDenominator) :
    (v.BeyondDoubles → Check.integer.holds v = .error .beyondFloat ∧
      Check.positiveInteger.holds v = .error .beyondFloat) ∧
    (¬ v.BeyondDoubles → ∃ whole positive : Bool,
      Check.integer.holds v = .ok whole ∧ Check.positiveInteger.holds v = .ok positive ∧
      (whole = true ↔
        v.tag = .number ∧ ((∃ q, v.rational? = some q ∧ IsWhole q) ∨ v.NearWhole)) ∧
      (positive = true ↔ whole = true ∧ ∃ q, v.rational? = some q ∧ 0 < q)) := by
  have hinteger : Check.integer.holds v = v.isInteger := rfl
  rw [hinteger, positiveInteger_holds]
  rcases isInteger_cases hv with ⟨hbeyond, herror⟩ | ⟨hbelow, whole, hok, hwhole⟩
  · rw [herror]
    exact ⟨fun _ => ⟨rfl, rfl⟩, fun hbelow => absurd hbeyond hbelow⟩
  · rw [hok]
    refine ⟨fun hbeyond => absurd hbeyond hbelow, fun _ => ⟨whole, whole && v.isPositive, rfl, rfl,
      hwhole, ?_⟩⟩
    rw [Bool.and_eq_true]
    refine and_congr_right fun htrue => ?_
    obtain ⟨number, hjudged⟩ := hwhole.mp htrue
    have hrational : ∃ q, v.rational? = some q := by
      rcases hjudged with ⟨q, hq, -⟩ | ⟨q, hq, -⟩
      · exact ⟨q, hq⟩
      · exact ⟨q, rational?_of_fraction hq⟩
    exact isPositive_iff number hv hrational

/-! ### Examples -/

/-- Half more than `2 ^ 53`, in a range where all doubles are whole. -/
def oddHalves : Value := .object none (.fraction (2 ^ 54 + 1) 2)

def pastDoubles : Value := .object none (.fraction (2 ^ 1024) 1)

theorem isInteger_oddHalves : oddHalves.isInteger = .ok true := rfl

theorem oddHalves_not_beyond : ¬ oddHalves.BeyondDoubles := by
  have hv : oddHalves.HasDenominator := two_pos
  rcases isInteger_cases hv with ⟨-, herror⟩ | ⟨hbelow, -⟩
  · rw [isInteger_oddHalves] at herror
    cases herror
  · exact hbelow

theorem pastDoubles_beyond : pastDoubles.BeyondDoubles := by
  refine ⟨(((2 : ℤ) ^ 1024 : ℤ) : ℚ) / (1 : ℕ), rfl, ?_⟩
  rw [Nat.cast_one, div_one, Int.cast_pow, Int.cast_ofNat, abs_of_pos (pow_pos two_pos _)]
  exact sub_le_self _ (pow_pos two_pos _).le

theorem integer_checks_odd_halves :
    (oddHalves.HasDenominator ∧ ¬ oddHalves.BeyondDoubles ∧ ∃ whole positive : Bool,
      Check.integer.holds oddHalves = .ok whole ∧
      Check.positiveInteger.holds oddHalves = .ok positive ∧
      (whole = true ↔ oddHalves.tag = .number ∧
        ((∃ q, oddHalves.rational? = some q ∧ IsWhole q) ∨ oddHalves.NearWhole)) ∧
      (positive = true ↔ whole = true ∧ ∃ q, oddHalves.rational? = some q ∧ 0 < q)) ∧
    pastDoubles.HasDenominator ∧ pastDoubles.BeyondDoubles ∧
      Check.integer.holds pastDoubles = .error .beyondFloat ∧
      Check.positiveInteger.holds pastDoubles = .error .beyondFloat :=
  ⟨⟨two_pos, oddHalves_not_beyond, (integer_checks two_pos).2 oddHalves_not_beyond⟩,
    one_pos, pastDoubles_beyond, (integer_checks one_pos).1 pastDoubles_beyond⟩

/-- A fraction that is not whole is called an integer, and for a whole one there is no answer. -/
theorem integer_of_odd_halves :
    (Check.integer.holds oddHalves = .ok true ∧
      ¬ ∃ q, oddHalves.rational? = some q ∧ IsWhole q) ∧
    Check.integer.holds pastDoubles = .error .beyondFloat ∧
      ∃ q, pastDoubles.rational? = some q ∧ IsWhole q := by
  refine ⟨⟨isInteger_oddHalves, ?_⟩, ?_, _, rfl, 2 ^ 1024, ?_⟩
  · rintro ⟨q, hq, n, rfl⟩
    have hratio : (((2 : ℤ) ^ 54 + 1 : ℤ) : ℚ) / (2 : ℕ) = n := Option.some.inj hq
    rw [div_eq_iff (Nat.cast_ne_zero.mpr two_ne_zero)] at hratio
    have hdouble : (2 : ℤ) ^ 54 + 1 = n * 2 := by exact_mod_cast hratio
    omega
  · rcases isInteger_cases (v := pastDoubles) one_pos with ⟨-, herror⟩ | ⟨hbelow, -⟩
    · exact herror
    · exact absurd pastDoubles_beyond hbelow
  · rw [Nat.cast_one, div_one]

end Conform
