import Conform.Text.Line
import Conform.Text.Utf8
/-!
# Texts in ASCII

The bytes of a text in ASCII are its characters, one by one, and they are decoded as that text. A
text with no carriage return keeps its lines. Main statement: `decodeUtf8_bytes`.
-/

set_option autoImplicit false

namespace Conform.Text

/-- The bytes that a text is stored as. -/
def bytes (text : String) : List UInt8 := text.toUTF8.data.toList

theorem utf8EncodeChar_of_ascii {c : Char} (h : c.toNat < 0x80) :
    String.utf8EncodeChar c = [UInt8.ofNat c.toNat] := by
  have hvalue : c.val.toNat ≤ 127 := Nat.le_of_lt_succ h
  unfold String.utf8EncodeChar
  exact if_pos hvalue

theorem bytes_ofList {cs : List Char} (h : ∀ c ∈ cs, c.toNat < 0x80) :
    bytes (String.ofList cs) = cs.map fun c => UInt8.ofNat c.toNat := by
  have hall : cs.flatMap String.utf8EncodeChar = cs.map fun c => UInt8.ofNat c.toNat := by
    induction cs with
    | nil => rfl
    | cons c cs ih =>
      obtain ⟨hc, hcs⟩ := List.forall_mem_cons.mp h
      rw [List.flatMap_cons, utf8EncodeChar_of_ascii hc, ih hcs]
      rfl
  show (String.ofList cs).toByteArray.data.toList = _
  rw [String.toByteArray_ofList, List.utf8Encode, List.toList_data_toByteArray, hall]

theorem decodeFrom_ascii {cs : List Char} (h : ∀ c ∈ cs, c.toNat < 0x80) (fuel position : Nat)
    (done : List Char) (hfuel : cs.length ≤ fuel) :
    decodeFrom fuel position done (cs.map fun c => UInt8.ofNat c.toNat)
      = .ok (done.reverse ++ cs) := by
  induction cs generalizing fuel position done with
  | nil =>
    rw [List.map_nil, decodeFrom, List.append_nil]
  | cons c cs ih =>
    obtain ⟨hc, hcs⟩ := List.forall_mem_cons.mp h
    rw [List.length_cons] at hfuel
    obtain ⟨fuel, rfl⟩ : ∃ less, fuel = less + 1 := ⟨fuel - 1, by omega⟩
    have hbyte : (UInt8.ofNat c.toNat).toNat = c.toNat :=
      UInt8.toNat_ofNat_of_lt (Nat.lt_trans hc (by decide))
    have hsequence : sequenceOf c.toNat = some (0, 0x80, 0xbf) := if_pos hc
    rw [List.map_cons, decodeFrom, hbyte, hsequence]
    show decodeFrom fuel _ (Char.ofNat c.toNat :: done) _ = _
    rw [Char.ofNat_toNat, ih hcs fuel _ _ (by omega), List.reverse_cons, List.append_assoc]
    rfl

/-- The bytes of a text in ASCII are decoded as the text. -/
theorem decodeUtf8_bytes {text : String} (h : ∀ c ∈ text.toList, c.toNat < 0x80) :
    decodeUtf8 (bytes text) = .ok text := by
  have hbytes : bytes text = text.toList.map fun c => UInt8.ofNat c.toNat := by
    rw [← bytes_ofList h, String.ofList_toList]
  rw [decodeUtf8, hbytes, decodeFrom_ascii h _ _ _ (by simp)]
  show Except.ok (String.ofList text.toList) = _
  rw [String.ofList_toList]

theorem unifyLineEnds_eq {cs : List Char} (h : ∀ c ∈ cs, c ≠ '\r') : unifyLineEnds cs = cs := by
  induction cs with
  | nil => rfl
  | cons c cs ih =>
    obtain ⟨hc, hcs⟩ := List.forall_mem_cons.mp h
    rw [unifyLineEnds, ih hcs]
    · rintro rest rfl
      exact absurd rfl hc
    · rintro rfl
      exact absurd rfl hc

end Conform.Text
