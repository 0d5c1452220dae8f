import Conform.Proofs.Json.Atoms
import Conform.Proofs.Json.UniqueKeys
import Conform.Proofs.Json.Strings
/-!
# The text of JSON

The text of an array or an object is put together from the texts of its parts. If a layout puts
nothing but spaces and line ends around commas and colons, and all numbers are integers, the text
has nothing but printable characters and line ends in it.
-/

set_option autoImplicit false

namespace Conform

/-! ## Layouts -/

/-- Commas and colons, with nothing but spaces after them and at the start of a line. -/
structure JsonLayout.Spaced (l : JsonLayout) : Prop where
  itemGap : ∃ n, l.itemGap = ',' :: List.replicate n ' '
  keyGap : ∃ n, l.keyGap = ':' :: List.replicate n ' '
  indent : ∀ step, l.indent = some step → ∃ n, step = List.replicate n ' '

namespace Json

/-- Null, truth values, integers that have a text, and texts. -/
def isExact : Json → Bool
  | .null => true
  | .bool _ => true
  | .int n => !isOverlong n
  | .str _ => true
  | _ => false

variable {l : JsonLayout}

/-- A key, a colon and a value. -/
def member (l : JsonLayout) (level : Nat) (m : String × Json) : List Char :=
  Text.jsonString m.1 ++ l.keyGap ++ chars l level m.2

theorem memberChars_cons (level : Nat) (m : String × Json) (members : List (String × Json)) :
    memberChars l level (m :: members)
      = l.itemGap ++ l.line level ++ member l level m ++ memberChars l level members := by
  obtain ⟨key, value⟩ := m
  simp [memberChars, member]

theorem chars_object (level : Nat) (m : String × Json) (members : List (String × Json)) :
    chars l level (.object (m :: members)) = '\x7b' :: (l.line (level + 1) ++
      (member l (level + 1) m ++ (memberChars l (level + 1) members ++
        (l.line level ++ ['\x7d'])))) := by
  obtain ⟨key, value⟩ := m
  simp [chars, member]

theorem chars_array (level : Nat) (item : Json) (items : List Json) :
    chars l level (.array (item :: items)) = '[' :: (l.line (level + 1) ++
      (chars l (level + 1) item ++ (itemChars l (level + 1) items ++
        (l.line level ++ [']'])))) := by
  simp [chars]

/-! ## Characters of a text -/

/-- What a text consists of. -/
def IsWritten (c : Char) : Prop := IsPlain c ∨ c = '\n'

instance (c : Char) : Decidable (IsWritten c) := inferInstanceAs (Decidable (_ ∨ _))

theorem isWritten_of_isPlain {cs : List Char} (h : ∀ c ∈ cs, IsPlain c) :
    ∀ c ∈ cs, IsWritten c :=
  fun c hc => .inl (h c hc)

theorem mem_line (hl : l.Spaced) {level : Nat} {c : Char} (hc : c ∈ l.line level) :
    c = '\n' ∨ c = ' ' := by
  unfold JsonLayout.line at hc
  split at hc
  · cases hc
  · next step hstep =>
    obtain ⟨n, rfl⟩ := hl.indent step hstep
    rcases List.mem_cons.mp hc with rfl | hc
    · exact .inl rfl
    · obtain ⟨part, hpart, hc⟩ := List.mem_flatten.mp hc
      rw [List.eq_of_mem_replicate hpart] at hc
      exact .inr (List.eq_of_mem_replicate hc)

theorem isWritten_line (hl : l.Spaced) (level : Nat) : ∀ c ∈ l.line level, IsWritten c := by
  intro c hc
  rcases mem_line hl hc with rfl | rfl
  · exact .inr rfl
  · exact .inl (by decide)

theorem isWritten_gap {gap : List Char} {c : Char} (hc : IsPlain c)
    (hgap : ∃ n, gap = c :: List.replicate n ' ') : ∀ d ∈ gap, IsWritten d := by
  obtain ⟨n, rfl⟩ := hgap
  refine List.forall_mem_cons.mpr ⟨.inl hc, fun d hd => ?_⟩
  rw [List.eq_of_mem_replicate hd]
  exact .inl (by decide)

theorem isPlain_toString (n : Int) : ∀ c ∈ (toString n).toList, IsPlain c := by
  have hdigits (m : Nat) : ∀ c ∈ Nat.toDigits 10 m, IsPlain c := by
    intro c hc
    have hdigit := isDigit_of_mem_toDigits hc
    simp only [isDigit, Bool.and_eq_true, decide_eq_true_eq] at hdigit
    have hlow : '0'.toNat ≤ c.toNat := hdigit.1
    have hhigh : c.toNat ≤ '9'.toNat := hdigit.2
    exact ⟨Nat.le_trans (by decide) hlow, Nat.lt_of_le_of_lt hhigh (by decide)⟩
  cases n with
  | ofNat n =>
    rw [toString_ofNat_toList]
    exact hdigits n
  | negSucc n =>
    rw [toString_negSucc_toList]
    exact List.forall_mem_cons.mpr ⟨by decide, hdigits (n + 1)⟩

theorem isPlain_of_all {cs : List Char} (h : (cs.all fun c => decide (IsPlain c)) = true) :
    ∀ c ∈ cs, IsPlain c :=
  fun c hc => of_decide_eq_true (List.all_eq_true.mp h c hc)

theorem isPlain_atom {j : Json} (h : isExact j = true) (level : Nat) :
    ∀ c ∈ chars l level j, IsPlain c := by
  cases j with
  | null => exact isPlain_of_all rfl
  | bool b =>
    cases b with
    | true => exact isPlain_of_all rfl
    | false => exact isPlain_of_all rfl
  | int n => exact isPlain_toString n
  | str s => exact isPlain_jsonString s
  | _ => cases h

theorem isWritten_itemChars (hl : l.Spaced) {level : Nat} {items : List Json}
    (each : ∀ item ∈ items, ∀ c ∈ chars l level item, IsWritten c) :
    ∀ c ∈ itemChars l level items, IsWritten c := by
  induction items with
  | nil => exact nofun
  | cons item items ih =>
    obtain ⟨hitem, hitems⟩ := List.forall_mem_cons.mp each
    have hcomma := isWritten_gap (by decide) hl.itemGap
    simp only [itemChars, List.forall_mem_append]
    exact ⟨⟨⟨hcomma, isWritten_line hl level⟩, hitem⟩, ih hitems⟩

theorem isWritten_member (hl : l.Spaced) {level : Nat} {m : String × Json}
    (h : ∀ c ∈ chars l level m.2, IsWritten c) : ∀ c ∈ member l level m, IsWritten c := by
  have hcolon := isWritten_gap (by decide) hl.keyGap
  simp only [member, List.forall_mem_append]
  exact ⟨⟨isWritten_of_isPlain (isPlain_jsonString m.1), hcolon⟩, h⟩

theorem isWritten_memberChars (hl : l.Spaced) {level : Nat} {members : List (String × Json)}
    (each : ∀ m ∈ members, ∀ c ∈ chars l level m.2, IsWritten c) :
    ∀ c ∈ memberChars l level members, IsWritten c := by
  induction members with
  | nil => exact nofun
  | cons m members ih =>
    obtain ⟨hm, hmembers⟩ := List.forall_mem_cons.mp each
    have hcomma := isWritten_gap (by decide) hl.itemGap
    simp only [memberChars_cons, List.forall_mem_append]
    exact ⟨⟨⟨hcomma, isWritten_line hl level⟩, isWritten_member hl hm⟩, ih hmembers⟩

theorem isWritten_chars (hl : l.Spaced) {j : Json} (hj : UniqueKeys isExact j) (level : Nat) :
    ∀ c ∈ chars l level j, IsWritten c := by
  have hplain (c : Char) (h : IsPlain c) : IsWritten c := .inl h
  induction hj generalizing level with
  | atom of_sort => exact isWritten_of_isPlain (isPlain_atom of_sort level)
  | @array items each ih =>
    cases items with
    | nil => exact isWritten_of_isPlain (isPlain_of_all rfl)
    | cons item items =>
      obtain ⟨hitem, hitems⟩ := List.forall_mem_cons.mp ih
      have hrest := isWritten_itemChars hl fun x hx => hitems x hx (level + 1)
      rw [chars_array]
      simp only [List.forall_mem_cons, List.forall_mem_append]
      exact ⟨hplain '[' (by decide), isWritten_line hl (level + 1), hitem (level + 1), hrest,
        isWritten_line hl level, hplain ']' (by decide), nofun⟩
  | @object members names each ih =>
    cases members with
    | nil => exact isWritten_of_isPlain (isPlain_of_all rfl)
    | cons m members =>
      obtain ⟨hm, hmembers⟩ := List.forall_mem_cons.mp ih
      have hfirst := isWritten_member hl (hm (level + 1))
      have hrest := isWritten_memberChars hl fun x hx => hmembers x hx (level + 1)
      rw [chars_object]
      simp only [List.forall_mem_cons, List.forall_mem_append]
      exact ⟨hplain '\x7b' (by decide), isWritten_line hl (level + 1), hfirst, hrest,
        isWritten_line hl level, hplain '\x7d' (by decide), nofun⟩

end Json

end Conform
