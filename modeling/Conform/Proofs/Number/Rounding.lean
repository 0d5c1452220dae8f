import Conform.Number.Double
import Mathlib.Algebra.Order.Field.Power
import Mathlib.Data.Rat.Cast.Order
import Mathlib.Tactic.FieldSimp
import Mathlib.Tactic.Linarith
import Mathlib.Tactic.NormNum
import Mathlib.Tactic.Ring
/-!
# Rounding to nearest

The number of a binary format that is nearest to a ratio, as a rational number: beyond which ratio
there is none, and from which ratios it is a whole number. Main statement: `nearest_of_pos`.
-/

set_option autoImplicit false

namespace Conform

/-! ## Rational values -/

/-- The rational number that an exact value stands for. -/
def Exact.rational? : Exact → Option ℚ
  | .ratio num den => some (num / den)
  | _ => none

/-- The rational number that a binary number stands for. -/
def Double.rational? : Double → Option ℚ
  | .finite negative mantissa exponent =>
    let size : ℚ := mantissa * 2 ^ exponent
    some (if negative then -size else size)
  | _ => none

def IsWhole (q : ℚ) : Prop := ∃ n : ℤ, q = n

theorem two_zpow_pos (e : ℤ) : (0 : ℚ) < 2 ^ e := zpow_pos two_pos e

theorem powerOfTwo_pos (e : ℤ) : 0 < (powerOfTwo e).1 ∧ 0 < (powerOfTwo e).2 := by
  have htwo (n : ℕ) : 0 < twoTo n := Nat.pow_pos two_pos
  unfold powerOfTwo
  by_cases he : 0 ≤ e
  · rw [if_pos he]
    exact ⟨htwo _, one_pos⟩
  · rw [if_neg he]
    exact ⟨one_pos, htwo _⟩

theorem cast_twoTo (n : ℕ) : (twoTo n : ℚ) = 2 ^ (n : ℤ) := by
  have htwo : twoTo n = 2 ^ n := rfl
  rw [htwo, Nat.cast_pow, zpow_natCast, Nat.cast_ofNat]

theorem powerOfTwo_div (e : ℤ) : ((powerOfTwo e).1 / (powerOfTwo e).2 : ℚ) = 2 ^ e := by
  unfold powerOfTwo
  by_cases he : 0 ≤ e
  · rw [if_pos he, cast_twoTo, Int.toNat_of_nonneg he, Nat.cast_one, div_one]
  · have hneg : 0 ≤ -e := by omega
    rw [if_neg he, cast_twoTo, Int.toNat_of_nonneg hneg, Nat.cast_one, one_div, ← zpow_neg,
      neg_neg]

theorem Double.rational?_exact (x : Double) : x.exact.rational? = x.rational? := by
  cases x with
  | nan => rfl
  | infinite negative => rfl
  | finite negative mantissa exponent =>
    have hsize : ((mantissa * (powerOfTwo exponent).1 : ℕ) : ℚ) / (powerOfTwo exponent).2
        = mantissa * 2 ^ exponent := by
      rw [Nat.cast_mul, mul_div_assoc, powerOfTwo_div]
    cases negative with
    | false => exact congrArg some hsize
    | true =>
      have hneg : ((-(mantissa * (powerOfTwo exponent).1 : ℕ) : ℤ) : ℚ) / (powerOfTwo exponent).2
          = -(mantissa * 2 ^ exponent) := by
        rw [Int.cast_neg, Int.cast_natCast, neg_div, hsize]
      exact congrArg some hneg

namespace Exact

def HasDenominator : Exact → Prop
  | .ratio _ den => 0 < den
  | _ => True

variable {x : Exact} {q : ℚ}

theorem isInteger_iff (hx : x.HasDenominator) :
    x.isInteger = true ↔ ∃ q, x.rational? = some q ∧ IsWhole q := by
  cases x with
  | nan => simp [isInteger, rational?]
  | infinite negative => simp [isInteger, rational?]
  | ratio num den =>
    have hden : (den : ℚ) ≠ 0 := Nat.cast_ne_zero.mpr (Nat.ne_of_gt hx)
    have hdvd : (Exact.ratio num den).isInteger = true ↔ (den : ℤ) ∣ num := by
      rw [isInteger, beq_iff_eq, Int.dvd_iff_emod_eq_zero]
    rw [hdvd]
    constructor
    · rintro ⟨n, rfl⟩
      refine ⟨_, rfl, n, ?_⟩
      rw [Int.cast_mul, Int.cast_natCast, mul_div_cancel_left₀ _ hden]
    · rintro ⟨q, hq, n, rfl⟩
      have hratio : (num / den : ℚ) = n := Option.some.inj hq
      rw [div_eq_iff hden] at hratio
      exact ⟨n, by rw [mul_comm]; exact_mod_cast hratio⟩

theorem isPositive_iff (hx : x.HasDenominator) (hq : x.rational? = some q) :
    x.isPositive = true ↔ 0 < q := by
  cases x with
  | nan => cases hq
  | infinite negative => cases hq
  | ratio num den =>
    cases hq
    have hden : (0 : ℚ) < den := Nat.cast_pos.mpr hx
    rw [isPositive, decide_eq_true_eq, lt_div_iff₀ hden, zero_mul, Int.cast_pos]

end Exact

theorem Double.hasDenominator_exact (x : Double) : x.exact.HasDenominator := by
  cases x with
  | nan => trivial
  | infinite negative => trivial
  | finite negative mantissa exponent => exact (powerOfTwo_pos exponent).2

theorem Double.isInteger_exact_iff {x : Double} {q : ℚ} (hq : x.rational? = some q) :
    x.exact.isInteger = true ↔ IsWhole q := by
  rw [Exact.isInteger_iff x.hasDenominator_exact, x.rational?_exact, hq]
  simp

/-! ## Rounding to whole numbers -/

/-- A ratio lies between two neighbours; the nearer one is taken, and of equally near ones the even
one. -/
theorem roundHalfEven_cases (num : ℕ) {den : ℕ} (hden : 0 < den) :
    ∃ (floor : ℕ) (rest : ℚ), (num / den : ℚ) = floor + rest ∧ 0 ≤ rest ∧ rest ≤ 1 ∧
      ((roundHalfEven num den = floor ∧ 2 * rest ≤ 1 ∧ (2 * rest = 1 → Even floor)) ∨
        (roundHalfEven num den = floor + 1 ∧ 1 ≤ 2 * rest ∧
          (2 * rest = 1 → Even (floor + 1)))) := by
  have hpos : (0 : ℚ) < den := Nat.cast_pos.mpr hden
  have hsplit : (num : ℚ) = (num / den : ℕ) * den + (num % den : ℕ) := by
    exact_mod_cast (Nat.div_add_mod' num den).symm
  have hle : ((num % den : ℕ) : ℚ) ≤ den := Nat.cast_le.mpr (Nat.mod_lt num hden).le
  have htwice : 2 * (((num % den : ℕ) : ℚ) / den) = ((2 * (num % den) : ℕ) : ℚ) / den := by
    rw [Nat.cast_mul, Nat.cast_ofNat, mul_div_assoc]
  refine ⟨num / den, (num % den : ℕ) / den, ?_, div_nonneg (Nat.cast_nonneg _) hpos.le,
    (div_le_one₀ hpos).mpr hle, ?_⟩
  · rw [div_eq_iff hpos.ne', add_mul, div_mul_cancel₀ _ hpos.ne']
    exact hsplit
  · rw [htwice, div_le_one₀ hpos, one_le_div₀ hpos, div_eq_one_iff_eq hpos.ne', Nat.cast_le,
      Nat.cast_le, Nat.cast_inj]
    unfold roundHalfEven
    by_cases hup : den < 2 * (num % den) ∨ (2 * (num % den) = den ∧ num / den % 2 = 1)
    · refine .inr ⟨if_pos hup, by omega, fun htie => ?_⟩
      rw [Nat.even_iff]
      omega
    · refine .inl ⟨if_neg hup, by omega, fun htie => ?_⟩
      rw [Nat.even_iff]
      omega

theorem roundHalfEven_spec (num : ℕ) {den : ℕ} (hden : 0 < den) :
    2 * |(num / den : ℚ) - roundHalfEven num den| ≤ 1 ∧
      (2 * |(num / den : ℚ) - roundHalfEven num den| = 1 → Even (roundHalfEven num den)) := by
  obtain ⟨floor, rest, hq, hrest, hle, hdown | hup⟩ := roundHalfEven_cases num hden
  · obtain ⟨hr, hhalf, htie⟩ := hdown
    rw [hq, hr, add_sub_cancel_left, abs_of_nonneg hrest]
    exact ⟨hhalf, htie⟩
  · obtain ⟨hr, hhalf, htie⟩ := hup
    have habs : |(floor + rest : ℚ) - (floor + 1 : ℕ)| = 1 - rest := by
      rw [Nat.cast_add, Nat.cast_one, add_sub_add_left_eq_sub, abs_sub_comm,
        abs_of_nonneg (by linarith)]
    rw [hq, hr, habs]
    exact ⟨by linarith, fun h => htie (by linarith)⟩

/-- An even number that is nearest, or one of two nearest ones, is the one that is taken: another
one would be its neighbour, as near as it is, and odd. -/
theorem roundHalfEven_of_even (num : ℕ) {den t : ℕ} (hden : 0 < den) (even : Even t)
    (close : 2 * |(num / den : ℚ) - t| ≤ 1) : roundHalfEven num den = t := by
  obtain ⟨herror, htie⟩ := roundHalfEven_spec num hden
  generalize roundHalfEven num den = r at herror htie
  have half {x : ℚ} (hx : 2 * |x| ≤ 1) : -1 ≤ 2 * x ∧ 2 * x ≤ 1 := by
    obtain ⟨hlow, hhigh⟩ := abs_le.mp (show |x| ≤ 1 / 2 by linarith)
    exact ⟨by linarith, by linarith⟩
  obtain ⟨hr₁, hr₂⟩ := half herror
  obtain ⟨ht₁, ht₂⟩ := half close
  have hlow : t ≤ r + 1 := by
    have hcast : (t : ℚ) ≤ r + 1 := by linarith
    exact_mod_cast hcast
  have hhigh : r ≤ t + 1 := by
    have hcast : (r : ℚ) ≤ t + 1 := by linarith
    exact_mod_cast hcast
  rw [Nat.even_iff] at even htie
  by_contra hne
  rcases (by omega : t = r + 1 ∨ r = t + 1) with hnext | hnext
  · have hcast : (t : ℚ) = r + 1 := by exact_mod_cast hnext
    have hodd := htie (by rw [abs_of_nonneg (by linarith)]; linarith)
    omega
  · have hcast : (r : ℚ) = t + 1 := by exact_mod_cast hnext
    have hodd := htie (by rw [abs_of_nonpos (by linarith)]; linarith)
    omega

/-! ## The step of a format -/

/-- The step from one number of a format to the next, at the size of a ratio. -/
structure BinaryFormat.IsScale (format : BinaryFormat) (q : ℚ) (scale : ℤ) : Prop where
  least : format.leastExponent ≤ scale
  below : q < 2 ^ (scale + format.digits)
  full : scale = format.leastExponent ∨ (2 : ℚ) ^ (scale + format.digits - 1) ≤ q

theorem zpow_log2_le {n : ℕ} (hn : 0 < n) : (2 : ℚ) ^ (n.log2 : ℤ) ≤ n := by
  rw [zpow_natCast]
  exact_mod_cast Nat.log2_self_le hn.ne'

theorem lt_zpow_log2 (n : ℕ) : (n : ℚ) < 2 ^ ((n.log2 : ℤ) + 1) := by
  have hlt : n < 2 ^ (n.log2 + 1) := Nat.lt_log2_self
  have hcast : (n : ℚ) < 2 ^ (n.log2 + 1) := by exact_mod_cast hlt
  exact_mod_cast hcast

theorem zpow_two_le {a b : ℤ} (hab : a ≤ b) : (2 : ℚ) ^ a ≤ 2 ^ b :=
  zpow_le_zpow_right₀ one_le_two hab

theorem lt_of_zpow_two_lt {a b : ℤ} (hab : (2 : ℚ) ^ a < 2 ^ b) : a < b :=
  (zpow_lt_zpow_iff_right₀ one_lt_two).mp hab

/-- The exponents of two numbers give their ratio up to a factor of two, either way. -/
theorem ratio_log2_bounds {num den : ℕ} (hnum : 0 < num) (hden : 0 < den) :
    (2 : ℚ) ^ ((num.log2 : ℤ) - den.log2 - 1) ≤ num / den ∧
      (num / den : ℚ) < 2 ^ ((num.log2 : ℤ) - den.log2 + 1) := by
  have hpos : (0 : ℚ) < den := Nat.cast_pos.mpr hden
  constructor
  · rw [le_div_iff₀ hpos]
    calc (2 : ℚ) ^ ((num.log2 : ℤ) - den.log2 - 1) * den
        ≤ 2 ^ ((num.log2 : ℤ) - den.log2 - 1) * 2 ^ ((den.log2 : ℤ) + 1) :=
          mul_le_mul_of_nonneg_left (lt_zpow_log2 den).le (two_zpow_pos _).le
      _ = 2 ^ (num.log2 : ℤ) := by rw [← zpow_add₀ two_ne_zero]; congr 1; omega
      _ ≤ num := zpow_log2_le hnum
  · rw [div_lt_iff₀ hpos]
    calc (num : ℚ) < 2 ^ ((num.log2 : ℤ) + 1) := lt_zpow_log2 num
      _ = 2 ^ ((num.log2 : ℤ) - den.log2 + 1) * 2 ^ (den.log2 : ℤ) := by
          rw [← zpow_add₀ two_ne_zero]; congr 1; omega
      _ ≤ 2 ^ ((num.log2 : ℤ) - den.log2 + 1) * den :=
          mul_le_mul_of_nonneg_left (zpow_log2_le hden) (two_zpow_pos _).le

/-- The comparison by which an exponent is chosen, without its denominators. -/
theorem le_scaled_iff {digits num den : ℕ} (hden : 0 < den) (guess : ℤ) :
    twoTo digits * (den * (powerOfTwo guess).1) ≤ num * (powerOfTwo guess).2 ↔
      (2 : ℚ) ^ (guess + digits) ≤ num / den := by
  have hpos : (0 : ℚ) < den := Nat.cast_pos.mpr hden
  have hdown : (0 : ℚ) < (powerOfTwo guess).2 := Nat.cast_pos.mpr (powerOfTwo_pos guess).2
  have hpower : (2 : ℚ) ^ (guess + digits)
      = 2 ^ (digits : ℤ) * ((powerOfTwo guess).1 / (powerOfTwo guess).2) := by
    rw [powerOfTwo_div, ← zpow_add₀ two_ne_zero, add_comm]
  rw [hpower, le_div_iff₀ hpos, ← mul_div_assoc, div_mul_eq_mul_div, div_le_iff₀ hdown,
    ← cast_twoTo, mul_assoc, mul_comm ((powerOfTwo guess).1 : ℚ)]
  exact_mod_cast Iff.rfl

/-- A format in which numbers have digits, and not only the least step. -/
structure BinaryFormat.Usual (format : BinaryFormat) : Prop where
  digits_pos : 0 < format.digits
  ordered : format.leastExponent ≤ format.greatestExponent

theorem BinaryFormat.usual_wide : BinaryFormat.wide.Usual := ⟨by decide, by decide⟩

namespace Double

variable (format : BinaryFormat) {num den : ℕ}

/-- The exponent that the lengths of the two numbers suggest. -/
def guessOf (num den : ℕ) : ℤ := (num.log2 : ℤ) - den.log2 - format.digits

theorem scaleOf_eq (num : ℕ) (hden : 0 < den) :
    scaleOf format num den =
      max (if (2 : ℚ) ^ (guessOf format num den + format.digits) ≤ num / den
        then guessOf format num den + 1 else guessOf format num den) format.leastExponent := by
  have hpairs : scaleOf format num den =
      max (if twoTo format.digits * (den * (powerOfTwo (guessOf format num den)).1)
          ≤ num * (powerOfTwo (guessOf format num den)).2
        then guessOf format num den + 1 else guessOf format num den) format.leastExponent := rfl
  rw [hpairs, if_congr (le_scaled_iff hden _) rfl rfl]

theorem guessOf_bounds (hnum : 0 < num) (hden : 0 < den) :
    (2 : ℚ) ^ (guessOf format num den + format.digits - 1) ≤ num / den ∧
      (num / den : ℚ) < 2 ^ (guessOf format num den + 1 + format.digits) := by
  obtain ⟨hlow, hhigh⟩ := ratio_log2_bounds hnum hden
  unfold guessOf
  exact ⟨(zpow_two_le (by omega)).trans hlow, hhigh.trans_le (zpow_two_le (by omega))⟩

theorem scaleOf_isScale (hnum : 0 < num) (hden : 0 < den) :
    format.IsScale (num / den) (scaleOf format num den) := by
  obtain ⟨hlow, hhigh⟩ := guessOf_bounds format hnum hden
  rw [scaleOf_eq format num hden]
  generalize guessOf format num den = guess at hlow hhigh
  have bounded {full : ℤ} (below : (num / den : ℚ) < 2 ^ (full + format.digits))
      (above : (2 : ℚ) ^ (full + format.digits - 1) ≤ num / den) :
      format.IsScale (num / den) (max full format.leastExponent) := by
    rcases le_total full format.leastExponent with hle | hle
    · rw [max_eq_right hle]
      exact ⟨le_rfl, below.trans_le (zpow_two_le (by omega)), .inl rfl⟩
    · rw [max_eq_left hle]
      exact ⟨hle, below, .inr above⟩
  by_cases hfull : (2 : ℚ) ^ (guess + format.digits) ≤ num / den
  · rw [if_pos hfull]
    exact bounded hhigh ((zpow_two_le (by omega)).trans hfull)
  · rw [if_neg hfull]
    exact bounded (not_le.mp hfull) hlow

/-- How many steps of the scale a ratio is rounded to. -/
def stepsOf (num den : ℕ) : ℕ :=
  roundHalfEven (num * (powerOfTwo (scaleOf format num den)).2)
    (den * (powerOfTwo (scaleOf format num den)).1)

end Double

/-! ## Rounding to steps -/

/-- A ratio is rounded to the nearest number of steps, and to an even one if two are nearest. -/
structure BinaryFormat.RoundsTo (format : BinaryFormat) (q : ℚ) (scale : ℤ) (steps : ℕ) :
    Prop where
  scaled : format.IsScale q scale
  close : 2 * |q - steps * 2 ^ scale| ≤ 2 ^ scale
  even : ∀ t : ℕ, Even t → 2 * |q - t * 2 ^ scale| ≤ 2 ^ scale → steps = t

theorem Double.stepsOf_roundsTo (format : BinaryFormat) {num den : ℕ} (hnum : 0 < num)
    (hden : 0 < den) :
    format.RoundsTo (num / den) (scaleOf format num den) (stepsOf format num den) := by
  have hscaled : format.IsScale (num / den) (scaleOf format num den) :=
    scaleOf_isScale format hnum hden
  unfold stepsOf
  generalize scaleOf format num den = scale at hscaled
  have hunit : (0 : ℚ) < 2 ^ scale := two_zpow_pos scale
  have hratio : ((num * (powerOfTwo scale).2 : ℕ) : ℚ) / (den * (powerOfTwo scale).1 : ℕ)
      = num / den / 2 ^ scale := by
    rw [← powerOfTwo_div, Nat.cast_mul, Nat.cast_mul, div_div_div_eq, mul_comm (den : ℚ)]
  have hpos : 0 < den * (powerOfTwo scale).1 := Nat.mul_pos hden (powerOfTwo_pos scale).1
  have hdistance (t : ℕ) : 2 * |(num / den / 2 ^ scale : ℚ) - t| ≤ 1 ↔
      2 * |(num / den : ℚ) - t * 2 ^ scale| ≤ 2 ^ scale := by
    have hsplit : (num / den : ℚ) - t * 2 ^ scale = (num / den / 2 ^ scale - t) * 2 ^ scale := by
      rw [sub_mul, div_mul_cancel₀ _ hunit.ne']
    rw [hsplit, abs_mul, abs_of_pos hunit, ← mul_assoc, mul_le_iff_le_one_left hunit]
  refine ⟨hscaled, ?_, fun t ht hclose => ?_⟩
  · rw [← hdistance, ← hratio]
    exact (roundHalfEven_spec _ hpos).1
  · rw [← hdistance, ← hratio] at hclose
    exact roundHalfEven_of_even _ hpos ht hclose

namespace BinaryFormat

/-- Half a step beyond the largest number of the format. -/
def limit (format : BinaryFormat) : ℚ :=
  2 ^ (format.digits + format.greatestExponent) - 2 ^ (format.greatestExponent - 1)

/-- No further from a whole number than half a step of the format at the size of the ratio, or than
half the least step. -/
def NearWhole (format : BinaryFormat) (q : ℚ) : Prop :=
  ∃ n e : ℤ, (e = format.leastExponent ∨ (2 : ℚ) ^ (e + format.digits - 1) ≤ |q|) ∧
    2 * |q - n| ≤ 2 ^ e

theorem nearWhole_neg {format : BinaryFormat} {q : ℚ} :
    format.NearWhole (-q) ↔ format.NearWhole q := by
  have flip {q : ℚ} (hq : format.NearWhole q) : format.NearWhole (-q) := by
    obtain ⟨n, e, hsize, hclose⟩ := hq
    refine ⟨-n, e, by rwa [abs_neg], ?_⟩
    rwa [Int.cast_neg, neg_sub_neg, abs_sub_comm]
  exact ⟨fun hq => neg_neg q ▸ flip hq, flip⟩

theorem nearWhole_of_isWhole {format : BinaryFormat} {q : ℚ} (hq : IsWhole q) :
    format.NearWhole q := by
  obtain ⟨n, rfl⟩ := hq
  refine ⟨n, format.leastExponent, .inl rfl, ?_⟩
  rw [sub_self, abs_zero, mul_zero]
  exact (two_zpow_pos _).le

/-- The mantissa and the exponent of so many steps: one more than there are digits for is one of
the next scale. -/
def carried (format : BinaryFormat) (scale : ℤ) (steps : ℕ) : ℕ × ℤ :=
  if steps = twoTo format.digits then (twoTo (format.digits - 1), scale + 1) else (steps, scale)

theorem carried_value {format : BinaryFormat} (usual : format.Usual) (scale : ℤ) (steps : ℕ) :
    ((format.carried scale steps).1 : ℚ) * 2 ^ (format.carried scale steps).2
      = steps * 2 ^ scale := by
  have hdigits := usual.digits_pos
  unfold carried
  by_cases hsteps : steps = twoTo format.digits
  · rw [if_pos hsteps, hsteps, cast_twoTo, cast_twoTo, ← zpow_add₀ two_ne_zero,
      ← zpow_add₀ two_ne_zero]
    congr 1
    omega
  · rw [if_neg hsteps]

theorem carried_exponent (format : BinaryFormat) (scale : ℤ) (steps : ℕ) :
    (format.carried scale steps).2
      = if steps = twoTo format.digits then scale + 1 else scale := by
  unfold carried
  split <;> rfl

namespace RoundsTo

variable {format : BinaryFormat} {q : ℚ} {scale : ℤ} {steps : ℕ}

theorem isWhole_of_nonneg (steps : ℕ) (hscale : 0 ≤ scale) :
    IsWhole (steps * 2 ^ scale) := by
  obtain ⟨k, rfl⟩ := Int.eq_ofNat_of_zero_le hscale
  exact ⟨steps * 2 ^ k, by push_cast [zpow_natCast]; rfl⟩

/-- At a scale below one, what is near to a positive ratio and whole is an even number of steps. -/
theorem exists_even_steps {n : ℤ} (hscale : scale < 0) (positive : 0 < q)
    (hclose : 2 * |q - n| ≤ 2 ^ scale) : ∃ t : ℕ, t * (2 : ℚ) ^ scale = n ∧ Even t := by
  have hunit : (2 : ℚ) ^ scale ≤ 1 := zpow_le_one_of_nonpos₀ one_le_two hscale.le
  have hlow : (-1 : ℚ) < n := by
    have hupper := le_abs_self (q - n)
    linarith
  have hn : 0 ≤ n := by
    have hcast : ((-1 : ℤ) : ℚ) < n := by rwa [Int.cast_neg, Int.cast_one]
    have hint : -1 < n := Int.cast_lt.mp hcast
    omega
  obtain ⟨m, rfl⟩ := Int.eq_ofNat_of_zero_le hn
  obtain ⟨k, hk⟩ : ∃ k : ℕ, scale = -((k + 1 : ℕ) : ℤ) := ⟨(-scale - 1).toNat, by omega⟩
  refine ⟨m * 2 ^ (k + 1), ?_, ?_⟩
  · rw [hk, zpow_neg, zpow_natCast, Nat.cast_mul, Nat.cast_pow, Nat.cast_ofNat, mul_assoc,
      mul_inv_cancel₀ (pow_ne_zero _ two_ne_zero), mul_one]
    rfl
  · rw [pow_succ, ← mul_assoc]
    exact even_two.mul_left _

/-- A whole number that is near enough is an even number of steps, unless steps are whole. -/
theorem isWhole_iff (hq : format.RoundsTo q scale steps) (positive : 0 < q) :
    IsWhole (steps * 2 ^ scale) ↔ format.NearWhole q := by
  constructor
  · rintro ⟨n, hn⟩
    refine ⟨n, scale, ?_, hn ▸ hq.close⟩
    rw [abs_of_pos positive]
    exact hq.scaled.full
  · rintro ⟨n, e, hsize, hnear⟩
    have hle : e ≤ scale := by
      rcases hsize with rfl | hfull
      · exact hq.scaled.least
      · rw [abs_of_pos positive] at hfull
        have hlt := lt_of_zpow_two_lt (hfull.trans_lt hq.scaled.below)
        omega
    have hclose : 2 * |q - n| ≤ 2 ^ scale := hnear.trans (zpow_two_le hle)
    rcases le_or_gt 0 scale with hscale | hscale
    · exact isWhole_of_nonneg steps hscale
    · obtain ⟨t, ht, heven⟩ := exists_even_steps hscale positive hclose
      rw [hq.even t heven (ht ▸ hclose)]
      exact ⟨n, ht⟩

/-! ### The limit -/

theorem two_mul_zpow_pred (e : ℤ) : 2 * (2 : ℚ) ^ (e - 1) = 2 ^ e := by
  rw [zpow_sub_one₀ two_ne_zero, mul_comm, inv_mul_cancel_right₀ two_ne_zero]

theorem limit_mono (digits : ℕ) {a b : ℤ} (hab : a ≤ b) :
    (2 : ℚ) ^ (digits + a) - 2 ^ (a - 1) ≤ 2 ^ (digits + b) - 2 ^ (b - 1) := by
  have hfactor (e : ℤ) : (2 : ℚ) ^ (digits + e) - 2 ^ (e - 1)
      = (2 ^ ((digits : ℤ) + 1) - 1) * 2 ^ (e - 1) := by
    rw [sub_mul, one_mul, ← zpow_add₀ two_ne_zero]
    congr 2
    omega
  have hpositive : (0 : ℚ) ≤ 2 ^ ((digits : ℤ) + 1) - 1 :=
    sub_nonneg.mpr (one_le_zpow₀ one_le_two (by omega))
  rw [hfactor, hfactor]
  exact mul_le_mul_of_nonneg_left (zpow_two_le (by omega)) hpositive

theorem greatest_le_of_limit_le (hq : format.RoundsTo q scale steps) (hlimit : format.limit ≤ q) :
    format.greatestExponent ≤ scale := by
  have hdouble := two_mul_zpow_pred (format.digits + format.greatestExponent)
  have hsmall : (2 : ℚ) ^ (format.greatestExponent - 1)
      ≤ 2 ^ (format.digits + format.greatestExponent - 1) := zpow_two_le (by omega)
  have hlarge : (2 : ℚ) ^ (format.digits + format.greatestExponent - 1) ≤ q := by
    rw [limit] at hlimit
    linarith
  have hlt := lt_of_zpow_two_lt (hlarge.trans_lt hq.scaled.below)
  omega

/-- At the largest scale there is a carry from the limit on, which is half a step before it. -/
theorem steps_eq_of_limit_le (usual : format.Usual)
    (hq : format.RoundsTo q format.greatestExponent steps) (hlimit : format.limit ≤ q) :
    steps = twoTo format.digits := by
  have hbelow := hq.scaled.below
  have hdouble := two_mul_zpow_pred format.greatestExponent
  rw [limit] at hlimit
  rw [add_comm] at hbelow
  refine hq.even _ (even_two.pow_of_ne_zero usual.digits_pos.ne') ?_
  rw [cast_twoTo, ← zpow_add₀ two_ne_zero, abs_of_nonpos (sub_nonpos.mpr hbelow.le)]
  linarith

theorem limit_le_of_carry (hq : format.RoundsTo q scale steps)
    (hsteps : steps = twoTo format.digits) (hscale : format.greatestExponent ≤ scale) :
    format.limit ≤ q := by
  have hmono := limit_mono format.digits hscale
  have hclose := hq.close
  rw [hsteps, cast_twoTo, ← zpow_add₀ two_ne_zero] at hclose
  have hlow := neg_abs_le (q - 2 ^ (format.digits + scale))
  have hdouble := two_mul_zpow_pred scale
  rw [limit]
  linarith

theorem limit_le_of_scale (hq : format.RoundsTo q scale steps) (usual : format.Usual)
    (hscale : format.greatestExponent < scale) : format.limit ≤ q := by
  have hordered := usual.ordered
  have hfull : (2 : ℚ) ^ (scale + format.digits - 1) ≤ q := hq.scaled.full.resolve_left (by omega)
  have hlarge : (2 : ℚ) ^ (format.digits + format.greatestExponent) ≤ q :=
    (zpow_two_le (by omega)).trans hfull
  have hpositive := two_zpow_pos (format.greatestExponent - 1)
  rw [limit]
  linarith

/-- The exponent is too large just from the limit on. -/
theorem limit_le_iff (hq : format.RoundsTo q scale steps) (usual : format.Usual) :
    format.limit ≤ q ↔ format.greatestExponent < (format.carried scale steps).2 := by
  rw [carried_exponent]
  constructor
  · intro hlimit
    rcases eq_or_lt_of_le (hq.greatest_le_of_limit_le hlimit) with rfl | hlt
    · rw [if_pos (steps_eq_of_limit_le usual hq hlimit)]
      omega
    · split <;> omega
  · intro hover
    by_cases hsteps : steps = twoTo format.digits
    · rw [if_pos hsteps] at hover
      exact hq.limit_le_of_carry hsteps (by omega)
    · rw [if_neg hsteps] at hover
      exact hq.limit_le_of_scale usual hover

end RoundsTo

end BinaryFormat

/-! ## The nearest number -/

namespace Double

variable {format : BinaryFormat} {num den : ℕ}

theorem rational?_zero_or_finite (negative : Bool) (mantissa : ℕ) (exponent : ℤ) :
    (if mantissa = 0 then zero negative else finite negative mantissa exponent).rational?
      = some (if negative then -(mantissa * 2 ^ exponent : ℚ) else mantissa * 2 ^ exponent) := by
  by_cases hmantissa : mantissa = 0
  · rw [if_pos hmantissa, hmantissa]
    simp [zero, rational?]
  · rw [if_neg hmantissa]
    rfl

/-- A positive ratio beyond the limit of the format becomes an infinity, and any other one a number
that is whole just if the ratio is near to a whole number. -/
theorem nearest_of_pos (usual : format.Usual) (negative : Bool) (hnum : 0 < num) (hden : 0 < den) :
    (format.limit ≤ num / den ∧ nearest format negative num den = .infinite negative) ∨
      ((num / den : ℚ) < format.limit ∧ ∃ y : ℚ,
        (nearest format negative num den).rational? = some (if negative then -y else y) ∧
        (IsWhole y ↔ format.NearWhole (num / den))) := by
  have hround : format.RoundsTo (num / den) _ _ := stepsOf_roundsTo format hnum hden
  have hpositive : (0 : ℚ) < num / den := div_pos (Nat.cast_pos.mpr hnum) (Nat.cast_pos.mpr hden)
  have hnearest : nearest format negative num den =
      if num = 0 then zero negative
      else if format.greatestExponent <
          (format.carried (scaleOf format num den) (stepsOf format num den)).2
        then .infinite negative
      else if (format.carried (scaleOf format num den) (stepsOf format num den)).1 = 0
        then zero negative
      else .finite negative (format.carried (scaleOf format num den) (stepsOf format num den)).1
        (format.carried (scaleOf format num den) (stepsOf format num den)).2 := rfl
  rw [hnearest, if_neg hnum.ne']
  by_cases hlimit : format.limit ≤ num / den
  · rw [if_pos ((hround.limit_le_iff usual).mp hlimit)]
    exact .inl ⟨hlimit, rfl⟩
  · rw [if_neg (mt (hround.limit_le_iff usual).mpr hlimit), rational?_zero_or_finite,
      BinaryFormat.carried_value usual]
    exact .inr ⟨not_le.mp hlimit, _, rfl, hround.isWhole_iff hpositive⟩

end Double

end Conform
