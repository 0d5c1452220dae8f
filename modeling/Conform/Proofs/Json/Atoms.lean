import Conform.Json.Reading
import Conform.Json.Written
/-!
# Words and integers in JSON

What is written of `null`, of a truth value or of an integer is read back as such, if it is followed
by something that ends it. Main statement: `readAtom_int`.
-/

set_option autoImplicit false

namespace Conform.Json

/-- What may follow a value: nothing, a blank, or what goes on with or ends a container. -/
def Ends (rest : List Char) : Prop :=
  ∀ c rest', rest = c :: rest' → isBlank c = true ∨ c = ',' ∨ c = ']' ∨ c = '\x7d'

theorem ends_nil : Ends [] := nofun

theorem ends_cons {c : Char} (h : isBlank c = true ∨ c = ',' ∨ c = ']' ∨ c = '\x7d')
    (rest : List Char) : Ends (c :: rest) := by
  intro c' rest' heq
  cases heq
  exact h

/-- Nothing that ends a value goes on with a number. -/
theorem Ends.not_number {c : Char} {rest : List Char} (h : Ends (c :: rest)) :
    isDigit c = false ∧ c ≠ '.' ∧ c ≠ 'e' ∧ c ≠ 'E' := by
  have hblank : isBlank c = true → c = ' ' ∨ c = '\t' ∨ c = '\n' ∨ c = '\r' := by
    simp [isBlank, or_assoc]
  rcases h c rest rfl with hc | rfl | rfl | rfl
  · rcases hblank hc with rfl | rfl | rfl | rfl <;> decide
  all_goals decide

/-! ## Digits -/

theorem ne_of_isDigit {c d : Char} (hc : isDigit c = true) (hd : isDigit d = false) : d ≠ c := by
  rintro rfl
  rw [hc] at hd
  cases hd

theorem isDigit_of_mem_toDigits {n : Nat} {c : Char} (h : c ∈ Nat.toDigits 10 n) :
    isDigit c = true :=
  Nat.isDigit_of_mem_toDigits (by decide) (by decide) h

theorem digitsValue_toDigits (n : Nat) : digitsValue (Nat.toDigits 10 n) = n :=
  Nat.ofDigitChars_toDigits (by decide) (by decide)

/-- Only zero starts with a zero. -/
theorem toDigits_cases (n : Nat) :
    n = 0 ∨ ∃ c rest, Nat.toDigits 10 n = c :: rest ∧ c ≠ '0' := by
  induction n using Nat.strongRecOn with
  | ind n ih =>
    by_cases hsmall : n < 10
    · have hall : ∀ n < 10, n = 0 ∨ n.digitChar ≠ '0' := by decide
      rw [Nat.toDigits_of_lt_base hsmall]
      exact (hall n hsmall).imp_right fun h => ⟨_, [], rfl, h⟩
    · rw [Nat.toDigits_of_base_le (by decide) (by omega)]
      rcases ih (n / 10) (by omega) with hzero | ⟨c, rest, hrest, hc⟩
      · omega
      · exact .inr ⟨c, rest ++ [(n % 10).digitChar], by rw [hrest, List.cons_append], hc⟩

variable {rest : List Char}

theorem takeWhile_digits {digits : List Char} (h : ∀ c ∈ digits, isDigit c = true)
    (hr : Ends rest) :
    (digits ++ rest).takeWhile isDigit = digits ∧ (digits ++ rest).dropWhile isDigit = rest := by
  rw [List.takeWhile_append_of_pos h, List.dropWhile_append_of_pos h]
  cases rest with
  | nil => simp
  | cons c rest => simp [hr.not_number.1]

theorem readWhole?_toDigits (n : Nat) (hr : Ends rest) :
    readWhole? (Nat.toDigits 10 n ++ rest) = some (Nat.toDigits 10 n, rest) := by
  rcases toDigits_cases n with rfl | ⟨c, digits, hdigits, hc⟩
  · rfl
  · have hall : ∀ d ∈ c :: digits, isDigit d = true := fun d hd =>
      isDigit_of_mem_toDigits (hdigits ▸ hd)
    obtain ⟨hfirst, hdigits'⟩ := List.forall_mem_cons.mp hall
    obtain ⟨htake, hdrop⟩ := takeWhile_digits hdigits' hr
    rw [hdigits, List.cons_append, readWhole?, if_pos hfirst, htake, hdrop]
    exact hc

theorem readFraction_of_ends (hr : Ends rest) : readFraction rest = ([], rest) := by
  unfold readFraction
  split
  · exact absurd rfl hr.not_number.2.1
  · rfl

theorem readPower_of_ends (hr : Ends rest) : readPower rest = none := by
  unfold readPower
  split
  · obtain ⟨-, -, hsmall, hlarge⟩ := hr.not_number
    simp [hsmall, hlarge]
  · rfl

theorem readUnsigned?_toDigits (negative : Bool) {n : Nat}
    (short : ¬ digitLimit < (Nat.toDigits 10 n).length) (hr : Ends rest) :
    readUnsigned? negative (Nat.toDigits 10 n ++ rest)
      = some (.ok (.int (if negative then -n else n), rest)) := by
  unfold readUnsigned?
  rw [readWhole?_toDigits n hr, Option.map_some]
  dsimp only
  rw [readFraction_of_ends hr, readPower_of_ends hr, digitsValue_toDigits, if_neg short]
  rfl

/-! ## Atoms -/

theorem readAtom_null (rest : List Char) : readAtom ("null".toList ++ rest) = .ok (.null, rest) :=
  rfl

theorem readAtom_bool (b : Bool) (rest : List Char) :
    readAtom ((if b then "true" else "false").toList ++ rest) = .ok (.bool b, rest) := by
  cases b <;> rfl

theorem readAtom_of_readNumber? {cs : List Char} {read : Json × List Char}
    (hwords : ∀ entry ∈ words, afterWord? entry.1 cs = none)
    (h : readNumber? cs = some (.ok read)) : readAtom cs = .ok read := by
  unfold readAtom
  split
  · next found hfound =>
    obtain ⟨entry, hentry, hmeant⟩ := List.exists_of_findSome?_eq_some hfound
    obtain ⟨after, hafter, -⟩ := Option.map_eq_some_iff.mp hmeant
    cases (hwords entry hentry).symm.trans hafter
  · rw [h]

theorem afterWord?_eq_none {w c : Char} (h : w ≠ c) (word cs : List Char) :
    afterWord? (w :: word) (c :: cs) = none := if_neg h

/-- No word starts with a digit, or with a digit after a minus. -/
theorem afterWord?_digit {c : Char} (h : isDigit c = true) (cs : List Char) :
    ∀ entry ∈ words, afterWord? entry.1 (c :: cs) = none ∧
      afterWord? entry.1 ('-' :: c :: cs) = none := by
  have hne (d : Char) (hd : isDigit d = false) : d ≠ c := ne_of_isDigit h hd
  intro entry hentry
  simp only [words, List.mem_cons, List.not_mem_nil, or_false] at hentry
  rcases hentry with rfl | rfl | rfl | rfl | rfl | rfl
  case inr.inr.inr.inr.inr =>
    exact ⟨afterWord?_eq_none (hne '-' rfl) _ _, afterWord?_eq_none (hne 'I' rfl) _ _⟩
  all_goals
    exact ⟨afterWord?_eq_none (hne _ rfl) _ _, afterWord?_eq_none (by decide) _ _⟩

theorem toString_ofNat_toList (n : Nat) : (toString (Int.ofNat n)).toList = Nat.toDigits 10 n :=
  Nat.toList_repr

theorem toString_negSucc_toList (n : Nat) :
    (toString (Int.negSucc n)).toList = '-' :: Nat.toDigits 10 (n + 1) := by
  show ("-" ++ (n + 1).repr).toList = _
  rw [String.toList_append, Nat.toList_repr]
  rfl

theorem toDigits_eq_cons (n : Nat) :
    ∃ c digits, Nat.toDigits 10 n = c :: digits ∧ isDigit c = true := by
  obtain ⟨c, digits, h⟩ := List.exists_cons_of_ne_nil (Nat.toDigits_ne_nil (n := n) (b := 10))
  exact ⟨c, digits, h, isDigit_of_mem_toDigits (h ▸ List.mem_cons_self ..)⟩

/-- An integer starts with a minus or a digit. -/
theorem toString_eq_cons (n : Int) :
    ∃ c cs, (toString n).toList = c :: cs ∧ (c = '-' ∨ isDigit c = true) := by
  cases n with
  | ofNat n =>
    obtain ⟨c, digits, h, hc⟩ := toDigits_eq_cons n
    exact ⟨c, digits, (toString_ofNat_toList n).trans h, .inr hc⟩
  | negSucc n => exact ⟨'-', _, toString_negSucc_toList n, .inl rfl⟩

theorem not_closing_of_mem_toString {n : Int} : ']' ∉ (toString n).toList := by
  have digits (n : Nat) : ']' ∉ Nat.toDigits 10 n := fun h =>
    ne_of_isDigit (isDigit_of_mem_toDigits h) rfl rfl
  cases n with
  | ofNat n =>
    rw [toString_ofNat_toList]
    exact digits n
  | negSucc n =>
    rw [toString_negSucc_toList]
    exact List.not_mem_cons_of_ne_of_not_mem (by decide) (digits (n + 1))

/-- Different integers have different texts. -/
theorem toString_int_inj {n m : Int} (h : (toString n).toList = (toString m).toList) : n = m := by
  have digits_inj {n m : Nat} (hd : Nat.toDigits 10 n = Nat.toDigits 10 m) : n = m := by
    rw [← digitsValue_toDigits n, hd, digitsValue_toDigits]
  have unsigned (n m : Nat) : Nat.toDigits 10 n ≠ '-' :: Nat.toDigits 10 m := by
    obtain ⟨c, digits, hn, hc⟩ := toDigits_eq_cons n
    rw [hn]
    exact fun heq => ne_of_isDigit hc rfl (List.cons.inj heq).1.symm
  cases n with
  | ofNat n =>
    rw [toString_ofNat_toList] at h
    cases m with
    | ofNat m => exact congrArg Int.ofNat (digits_inj (h.trans (toString_ofNat_toList m)))
    | negSucc m => exact absurd (h.trans (toString_negSucc_toList m)) (unsigned n (m + 1))
  | negSucc n =>
    rw [toString_negSucc_toList] at h
    cases m with
    | ofNat m => exact absurd (h.trans (toString_ofNat_toList m)).symm (unsigned m (n + 1))
    | negSucc m =>
      have hsucc := digits_inj (List.cons.inj (h.trans (toString_negSucc_toList m))).2
      exact congrArg Int.negSucc (Nat.succ.inj hsucc)

theorem readAtom_int {n : Int} (short : isOverlong n = false) (hr : Ends rest) :
    readAtom ((toString n).toList ++ rest) = .ok (.int n, rest) := by
  have hlength : ¬ digitLimit < (Nat.toDigits 10 n.natAbs).length := of_decide_eq_false short
  cases n with
  | ofNat n =>
    obtain ⟨c, digits, h, hc⟩ := toDigits_eq_cons n
    have hread := readUnsigned?_toDigits false hlength hr
    rw [toString_ofNat_toList]
    rw [Int.natAbs_ofNat', h, List.cons_append] at hread
    rw [h, List.cons_append]
    refine readAtom_of_readNumber? (fun entry he => (afterWord?_digit hc _ entry he).1) ?_
    have hminus : '-' ≠ c := ne_of_isDigit hc rfl
    unfold readNumber?
    split
    · next heq =>
      cases heq
      exact absurd rfl hminus
    · exact hread
  | negSucc n =>
    obtain ⟨c, digits, h, hc⟩ := toDigits_eq_cons (n + 1)
    have hread := readUnsigned?_toDigits true hlength hr
    rw [toString_negSucc_toList]
    rw [Int.natAbs_negSucc, h, List.cons_append] at hread
    rw [h, List.cons_append]
    exact readAtom_of_readNumber? (fun entry he => (afterWord?_digit hc _ entry he).2) hread

end Conform.Json
