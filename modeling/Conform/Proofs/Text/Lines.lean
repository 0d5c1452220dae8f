import Mathlib.Data.List.Basic
/-!
# Lines of a text

A text is shifted by four blanks after each of its line ends. Shifting goes through the parts that a
text is put together from, and leaves alone what is on one line.
-/

set_option autoImplicit false

namespace Conform

theorem pushn_toList (n : Nat) : ("".pushn ' ' n).toList = List.replicate n ' ' := by
  unfold String.pushn
  induction n with
  | zero => rfl
  | succ n ih => rw [Nat.repeat, String.toList_push, ih, List.replicate_succ']

/-! ## Texts on one line -/

def OneLine (s : String) : Prop := '\n' ∉ s.toList

instance (s : String) : Decidable (OneLine s) := inferInstanceAs (Decidable (¬ _))

theorem OneLine.append {s t : String} (hs : OneLine s) (ht : OneLine t) : OneLine (s ++ t) := by
  unfold OneLine at *
  rw [String.toList_append, List.mem_append]
  exact fun h => h.elim hs ht

/-! ## Shifted texts -/

/-- A character of a shifted text. -/
def shiftedChar (c : Char) : List Char := if c = '\n' then '\n' :: List.replicate 4 ' ' else [c]

/-- A text with four blanks after each line end. -/
def shifted (s : String) : String := String.ofList (s.toList.flatMap shiftedChar)

theorem toList_shifted (s : String) : (shifted s).toList = s.toList.flatMap shiftedChar :=
  String.toList_ofList

theorem shifted_append (s t : String) : shifted (s ++ t) = shifted s ++ shifted t := by
  rw [← String.toList_inj, String.toList_append, toList_shifted, toList_shifted, toList_shifted,
    String.toList_append, List.flatMap_append]

theorem flatMap_shiftedChar {cs : List Char} (hcs : '\n' ∉ cs) : cs.flatMap shiftedChar = cs := by
  induction cs with
  | nil => rfl
  | cons c cs ih =>
    obtain ⟨hc, hrest⟩ := not_or.mp fun hmem => hcs (List.mem_cons.mpr hmem)
    rw [List.flatMap_cons, ih hrest, shiftedChar, if_neg (Ne.symm hc), List.singleton_append]

theorem shifted_of_oneLine {s : String} (hs : OneLine s) : shifted s = s := by
  rw [← String.toList_inj, toList_shifted, flatMap_shiftedChar hs]

theorem shifted_intercalate (gap : String) (parts : List String) :
    shifted (gap.intercalate parts) = (shifted gap).intercalate (parts.map shifted) := by
  induction parts with
  | nil => rfl
  | cons part parts ih =>
    cases parts with
    | nil => simp
    | cons next parts =>
      rw [List.map_cons] at ih
      rw [List.map_cons, List.map_cons, String.intercalate_cons_cons,
        String.intercalate_cons_cons, shifted_append, shifted_append, ih]

/-! ## Parts of a text -/

/-- What stands behind every gap and in front of the first part stands in front of each part. -/
theorem intercalate_behind (gap front : String) (part : String) (parts : List String) :
    front ++ (gap ++ front).intercalate (part :: parts)
      = gap.intercalate ((part :: parts).map (front ++ ·)) := by
  induction parts generalizing part with
  | nil => simp
  | cons next parts ih =>
    have hrest := ih next
    rw [List.map_cons] at hrest
    rw [List.map_cons, List.map_cons, String.intercalate_cons_cons, String.intercalate_cons_cons,
      ← hrest]
    simp only [String.append_assoc]

/-- A text with another one in it. -/
def Shows (part whole : String) : Prop := ∃ before after, whole = before ++ part ++ after

namespace Shows

theorem refl (s : String) : Shows s s := ⟨"", "", by simp⟩

theorem inside (before part after : String) : Shows part (before ++ part ++ after) :=
  ⟨before, after, rfl⟩

theorem trans {s t u : String} (hst : Shows s t) (htu : Shows t u) : Shows s u := by
  obtain ⟨before, after, rfl⟩ := hst
  obtain ⟨before', after', rfl⟩ := htu
  exact ⟨before' ++ before, after ++ after', by simp only [String.append_assoc]⟩

theorem shifted {part whole : String} (hp : Shows part whole) :
    Shows (shifted part) (shifted whole) := by
  obtain ⟨before, after, rfl⟩ := hp
  rw [shifted_append, shifted_append]
  exact inside _ _ _

theorem intercalate (gap : String) {part : String} {parts : List String} (hp : part ∈ parts) :
    Shows part (gap.intercalate parts) := by
  induction parts with
  | nil => cases hp
  | cons first parts ih =>
    cases parts with
    | nil =>
      cases List.mem_singleton.mp hp
      rw [String.intercalate_singleton]
      exact refl part
    | cons next parts =>
      rw [String.intercalate_cons_cons]
      rcases List.mem_cons.mp hp with rfl | hp
      · exact ⟨"", gap ++ gap.intercalate (next :: parts), by simp [String.append_assoc]⟩
      · exact (ih hp).trans ⟨first ++ gap, "", by simp⟩

end Shows

end Conform
