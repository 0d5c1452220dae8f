import Conform.Json.Reading
import Conform.Json.Written
import Conform.Text.Line
/-!
# Strings in JSON

What is written of a character, escaped or not, is read back as that character, whatever comes
after it before the closing quote. Main statement: `readString_jsonString`.
-/

set_option autoImplicit false

namespace Conform.Json

open Text

/-! ## Digits -/

theorem hexValue?_hexDigit {n : Nat} (h : n < 16) : hexValue? (hexDigit n) = some n := by
  have hall : ∀ n < 16, hexValue? (hexDigit n) = some n := by decide
  exact hall n h

theorem readHex?_hex {n : Nat} (h : n < 0x10000) (next : Char) (rest : List Char) :
    readHex? (hex 4 n ++ next :: rest) = some (n, next :: rest) := by
  have hdigit (m : Nat) : hexValue? (hexDigit (m % 16)) = some (m % 16) :=
    hexValue?_hexDigit (Nat.mod_lt m (by decide))
  have hvalue : ((n / 16 / 16 / 16 % 16 * 16 + n / 16 / 16 % 16) * 16 + n / 16 % 16) * 16 + n % 16
      = n := by omega
  simp only [hex, List.nil_append, List.cons_append, readHex?, hdigit,
    Option.bind_eq_bind, Option.bind_some, hvalue]
  rfl

/-! ## Characters -/

/-- A code point is below the surrogates or above them. -/
theorem toNat_cases (c : Char) : c.toNat < 0xd800 ∨ 0xdfff < c.toNat ∧ c.toNat < 0x110000 :=
  c.valid

theorem unitChar_toNat (c : Char) : unitChar c.toNat = c := by
  have hc := toNat_cases c
  have hplain : (decide (0xd800 ≤ c.toNat) && decide (c.toNat < 0xe000)) = false := by
    simp
    omega
  rw [unitChar, hplain]
  exact Char.ofNat_toNat c

theorem readUnicode_first {c : Char} (h : c.toNat < 0x10000) (start : List Char) (next : Char)
    (rest : List Char) :
    readUnicode start (hex 4 c.toNat ++ next :: rest) = .ok (c, next :: rest) := by
  have hc := toNat_cases c
  have hhigh : (decide (0xd800 ≤ c.toNat) && decide (c.toNat < 0xdc00)) = false := by
    simp
    omega
  unfold readUnicode
  rw [readHex?_hex h]
  dsimp only
  rw [hhigh, unitChar_toNat]
  rfl

theorem readUnicode_halves {high low : Nat} (hhigh : 0xd800 ≤ high ∧ high < 0xdc00)
    (hlow : 0xdc00 ≤ low ∧ low < 0xe000) (start : List Char) (next : Char) (rest : List Char) :
    readUnicode start (hex 4 high ++ '\\' :: 'u' :: (hex 4 low ++ next :: rest))
      = .ok (Char.ofNat (0x10000 + (high - 0xd800) * 0x400 + (low - 0xdc00)), next :: rest) := by
  have hlength : ¬ (hex 4 low ++ next :: rest).length < 5 := by simp [hex]
  unfold readUnicode
  rw [readHex?_hex (by omega)]
  dsimp only
  rw [if_pos (by simpa using hhigh)]
  show (if (hex 4 low ++ next :: rest).length < 5 then _ else _) = _
  rw [if_neg hlength, readHex?_hex (by omega)]
  dsimp only
  rw [if_pos (by simpa using hlow)]

/-- A character beyond the first plane is written as the two halves of a pair. -/
theorem readUnicode_pair {c : Char} (h : 0x10000 ≤ c.toNat) (start : List Char) (next : Char)
    (rest : List Char) :
    readUnicode start (hex 4 (0xd800 + (c.toNat - 0x10000) / 0x400)
        ++ '\\' :: 'u' :: (hex 4 (0xdc00 + (c.toNat - 0x10000) % 0x400) ++ next :: rest))
      = .ok (c, next :: rest) := by
  have hc := toNat_cases c
  have hhigh : 0xd800 ≤ 0xd800 + (c.toNat - 0x10000) / 0x400 ∧
      0xd800 + (c.toNat - 0x10000) / 0x400 < 0xdc00 := by omega
  have hlow : 0xdc00 ≤ 0xdc00 + (c.toNat - 0x10000) % 0x400 ∧
      0xdc00 + (c.toNat - 0x10000) % 0x400 < 0xe000 := by omega
  have hvalue : 0x10000 + (0xd800 + (c.toNat - 0x10000) / 0x400 - 0xd800) * 0x400
      + (0xdc00 + (c.toNat - 0x10000) % 0x400 - 0xdc00) = c.toNat := by omega
  rw [readUnicode_halves hhigh hlow, hvalue, Char.ofNat_toNat]

/-! ## Printable characters -/

/-- The characters that JSON is written in, apart from line ends. -/
def IsPlain (c : Char) : Prop := 0x20 ≤ c.toNat ∧ c.toNat < 0x7f

instance (c : Char) : Decidable (IsPlain c) := inferInstanceAs (Decidable (_ ∧ _))

theorem isPlain_hex (width n : Nat) : ∀ c ∈ hex width n, IsPlain c := by
  have hdigit : ∀ n < 16, IsPlain (hexDigit n) := by decide
  induction width generalizing n with
  | zero => exact nofun
  | succ width ih =>
    rw [hex, List.forall_mem_append]
    exact ⟨ih (n / 16), List.forall_mem_singleton.mpr (hdigit _ (Nat.mod_lt n (by decide)))⟩

theorem isPlain_unicodeEscape (n : Nat) : ∀ c ∈ unicodeEscape n, IsPlain c :=
  List.forall_mem_cons.mpr ⟨by decide, List.forall_mem_cons.mpr ⟨by decide, isPlain_hex 4 n⟩⟩

/-! ## Escapes -/

/-- How a character is written: with a letter, with its code point, as it is, or as a pair. -/
inductive Written (c : Char) : List Char → Prop
  | letter {letter : Char} (meant : escapedChar? letter = some c) (plain : IsPlain letter) :
      Written c ['\\', letter]
  | unicode (first : c.toNat < 0x10000) : Written c (unicodeEscape c.toNat)
  | plain (plain : IsPlain c) (hquote : c ≠ '"') (hslash : c ≠ '\\') : Written c [c]
  | pair (beyond : 0x10000 ≤ c.toNat) :
      Written c (unicodeEscape (0xd800 + (c.toNat - 0x10000) / 0x400)
        ++ unicodeEscape (0xdc00 + (c.toNat - 0x10000) % 0x400))

theorem written_jsonChar (c : Char) : Written c (jsonChar c) := by
  by_cases hquote : c = '"'
  · subst hquote
    exact .letter rfl (by decide)
  by_cases hslash : c = '\\'
  · subst hslash
    exact .letter rfl (by decide)
  by_cases hline : c = '\n'
  · subst hline
    exact .letter rfl (by decide)
  by_cases hreturn : c = '\r'
  · subst hreturn
    exact .letter rfl (by decide)
  by_cases htab : c = '\t'
  · subst htab
    exact .letter rfl (by decide)
  by_cases hfeed : c = '\x0c'
  · subst hfeed
    exact .letter rfl (by decide)
  by_cases hback : c = '\x08'
  · subst hback
    exact .letter rfl (by decide)
  rw [jsonChar, if_neg hquote, if_neg hslash, if_neg hline, if_neg hreturn, if_neg htab,
    if_neg hfeed, if_neg hback]
  dsimp only
  by_cases hcontrol : c.toNat < 0x20
  · rw [if_pos hcontrol]
    exact .unicode (by omega)
  rw [if_neg hcontrol]
  by_cases hplain : c.toNat < 0x7f
  · rw [if_pos hplain]
    exact .plain ⟨by omega, hplain⟩ hquote hslash
  rw [if_neg hplain]
  by_cases hfirst : c.toNat < 0x10000
  · rw [if_pos hfirst]
    exact .unicode hfirst
  rw [if_neg hfirst]
  exact .pair (by omega)

theorem Written.isPlain {c : Char} {written : List Char} (h : Written c written) :
    ∀ d ∈ written, IsPlain d := by
  cases h with
  | letter _ plain =>
    exact List.forall_mem_cons.mpr ⟨by decide, List.forall_mem_singleton.mpr plain⟩
  | unicode => exact isPlain_unicodeEscape _
  | plain plain => exact List.forall_mem_singleton.mpr plain
  | pair => exact List.forall_mem_append.mpr ⟨isPlain_unicodeEscape _, isPlain_unicodeEscape _⟩

theorem Written.ne_nil {c : Char} {written : List Char} (h : Written c written) :
    written ≠ [] := by
  cases h <;> nofun

theorem isPlain_jsonString (s : String) : ∀ c ∈ jsonString s, IsPlain c := by
  have hquote : IsPlain '"' := by decide
  refine List.forall_mem_cons.mpr ⟨hquote, List.forall_mem_append.mpr ⟨fun c hc => ?_, ?_⟩⟩
  · obtain ⟨d, -, hd⟩ := List.mem_flatMap.mp hc
    exact (written_jsonChar d).isPlain c hd
  · exact List.forall_mem_singleton.mpr hquote

/-! ## Strings -/

variable {whole : List Char} {fuel : Nat}

theorem readChars_letter {c letter : Char} (h : escapedChar? letter = some c) (rest : List Char) :
    readChars whole (fuel + 1) ('\\' :: letter :: rest)
      = readChars whole fuel rest >>= fun (more, tail) => pure (c :: more, tail) := by
  rw [readChars, h]
  rintro rfl
  cases h

theorem readChars_unicode {c : Char} {rest after : List Char}
    (h : readUnicode ('u' :: rest) rest = .ok (c, after)) :
    readChars whole (fuel + 1) ('\\' :: 'u' :: rest)
      = readChars whole fuel after >>= fun (more, tail) => pure (c :: more, tail) := by
  rw [readChars, h]
  rfl

theorem readChars_plain {c : Char} (hquote : c ≠ '"') (hslash : c ≠ '\\') (h : IsPlain c)
    (rest : List Char) : readChars whole (fuel + 1) (c :: rest)
      = readChars whole fuel rest >>= fun (more, tail) => pure (c :: more, tail) := by
  have hcontrol : ¬ c.toNat < 0x20 := Nat.not_lt.mpr h.1
  rw [readChars, if_neg hcontrol]
  · exact hquote
  · exact fun heq _ => hslash heq
  · exact fun rest' heq _ => hslash heq
  · exact fun c' rest' heq _ => hslash heq

/-- However a character is written, it is read back before anything that follows. -/
theorem Written.read {c : Char} {written : List Char} (h : Written c written) (next : Char)
    (rest : List Char) : readChars whole (fuel + 1) (written ++ next :: rest)
      = readChars whole fuel (next :: rest) >>= fun (more, tail) => pure (c :: more, tail) := by
  cases h with
  | letter meant => exact readChars_letter meant (next :: rest)
  | unicode first => exact readChars_unicode (readUnicode_first first _ next rest)
  | plain plain hquote hslash => exact readChars_plain hquote hslash plain (next :: rest)
  | pair beyond =>
    rw [List.append_assoc]
    exact readChars_unicode (readUnicode_pair beyond _ next rest)

theorem length_le_flatMap_jsonChar (cs : List Char) :
    cs.length ≤ (cs.flatMap jsonChar).length := by
  induction cs with
  | nil => exact Nat.zero_le _
  | cons c cs ih =>
    have hc := List.length_pos_iff.mpr (written_jsonChar c).ne_nil
    rw [List.flatMap_cons, List.length_append, List.length_cons]
    omega

theorem readChars_flatMap (cs rest : List Char) (hfuel : cs.length < fuel) :
    readChars whole fuel (cs.flatMap jsonChar ++ '"' :: rest) = .ok (cs, rest) := by
  induction cs generalizing fuel with
  | nil =>
    obtain ⟨fuel, rfl⟩ : ∃ less, fuel = less + 1 := ⟨fuel - 1, by simp at hfuel; omega⟩
    rfl
  | cons c cs ih =>
    rw [List.length_cons] at hfuel
    obtain ⟨fuel, rfl⟩ : ∃ less, fuel = less + 1 := ⟨fuel - 1, by omega⟩
    have hrest := ih (by omega : cs.length < fuel)
    -- What follows a character is not empty: it goes on to the closing quote.
    obtain ⟨next, tail, htail⟩ : ∃ next tail, cs.flatMap jsonChar ++ '"' :: rest = next :: tail :=
      List.exists_cons_of_ne_nil (by simp)
    rw [List.flatMap_cons, List.append_assoc, htail, (written_jsonChar c).read, ← htail, hrest]
    rfl

/-- A string is read back up to the quote that closes it. -/
theorem readString_jsonString (s : String) (rest : List Char) :
    readString (s.toList.flatMap jsonChar ++ '"' :: rest) = .ok (s, rest) := by
  have hlength := length_le_flatMap_jsonChar s.toList
  unfold readString
  rw [readChars_flatMap s.toList rest]
  · simp [Except.map]
  · rw [List.length_append]
    omega

end Conform.Json
