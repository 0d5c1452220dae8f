import Conform.Proofs.Json.Layout
/-!
# JSON is read back from its text

Whatever the layout, as long as it puts nothing but spaces and line ends around commas and colons,
the text of a JSON tree is read back as the tree, if all its numbers are integers. Main statement:
`read_text`.
-/

set_option autoImplicit false

namespace Conform

namespace Json

theorem skipBlanks_append {blanks : List Char} (h : ∀ c ∈ blanks, isBlank c = true)
    (rest : List Char) : skipBlanks (blanks ++ rest) = skipBlanks rest :=
  List.dropWhile_append_of_pos h

theorem skipBlanks_cons {c : Char} (h : isBlank c = false) (rest : List Char) :
    skipBlanks (c :: rest) = c :: rest := by
  simp [skipBlanks, h]

variable {l : JsonLayout}

theorem isBlank_of_mem_line (hl : l.Spaced) (level : Nat) :
    ∀ c ∈ l.line level, isBlank c = true := by
  intro c hc
  rcases mem_line hl hc with rfl | rfl <;> rfl

theorem isBlank_of_mem_spaces {n : Nat} : ∀ c ∈ List.replicate n ' ', isBlank c = true := by
  intro c hc
  rw [List.eq_of_mem_replicate hc]
  rfl

/-- The blanks before what ends a container are part of its end. -/
theorem ends_line (hl : l.Spaced) (level : Nat) {c : Char} (hc : c = ']' ∨ c = '\x7d')
    (rest : List Char) : Ends (l.line level ++ c :: rest) := by
  cases hline : l.line level with
  | nil => exact ends_cons (.inr (.inr hc)) rest
  | cons blank line =>
    have hblank := isBlank_of_mem_line hl level blank (hline ▸ List.mem_cons_self ..)
    exact ends_cons (.inl hblank) (line ++ c :: rest)

/-! ## Values -/

/-- A value whose text is read back, before anything that ends a value. Reading takes two units of
fuel for each character at the most. -/
structure ReadsBack (l : JsonLayout) (j : Json) : Prop where
  starts : ∀ level, ∃ c cs, chars l level j = c :: cs ∧ isBlank c = false ∧ c ≠ ']'
  reads : ∀ level fuel rest, 2 * (chars l level j).length ≤ fuel → Ends rest →
    readValue fuel (chars l level j ++ rest) = .ok (j, rest)

theorem ReadsBack.skip {j : Json} (h : ReadsBack l j) {blanks : List Char}
    (hblanks : ∀ c ∈ blanks, isBlank c = true) (level : Nat) (rest : List Char) :
    skipBlanks (blanks ++ (chars l level j ++ rest)) = chars l level j ++ rest := by
  obtain ⟨c, cs, hchars, hc, -⟩ := h.starts level
  rw [skipBlanks_append hblanks, hchars, List.cons_append, skipBlanks_cons hc]

/-! ## Steps of reading -/

section

variable {fuel : Nat} {cs rest more after : List Char}

theorem readValue_string (fuel : Nat) (cs : List Char) :
    readValue (fuel + 1) ('"' :: cs) = (readString cs).map fun (s, after) => (.str s, after) := rfl

theorem readValue_items {c : Char} (h : skipBlanks cs = c :: rest) (hc : c ≠ ']') :
    readValue (fuel + 1) ('[' :: cs)
      = (readItems fuel (c :: rest)).map fun (items, after) => (.array items, after) := by
  rw [readValue]
  dsimp only
  rw [h]
  split
  · next heq =>
    cases heq
    exact absurd rfl hc
  · rfl

theorem readValue_members {c : Char} (h : skipBlanks cs = c :: rest) (hc : c ≠ '\x7d') :
    readValue (fuel + 1) ('\x7b' :: cs)
      = (readMembers fuel (c :: rest)).map fun (members, after) => (ofMembers members, after) := by
  rw [readValue]
  dsimp only
  rw [h]
  split
  · next heq =>
    cases heq
    exact absurd rfl hc
  · rfl

theorem readValue_of_atom {c : Char} (h : c ≠ '"' ∧ c ≠ '[' ∧ c ≠ '\x7b') :
    readValue (fuel + 1) (c :: cs) = readAtom (c :: cs) := by
  obtain ⟨hquote, hbracket, hbrace⟩ := h
  rw [readValue.eq_def]
  dsimp only
  split
  · next heq =>
    cases heq
    exact absurd rfl hquote
  · next heq =>
    cases heq
    exact absurd rfl hbracket
  · next heq =>
    cases heq
    exact absurd rfl hbrace
  · rfl

theorem readItems_last {item : Json} (hread : readValue fuel cs = .ok (item, rest))
    (hrest : skipBlanks rest = ']' :: after) : readItems (fuel + 1) cs = .ok ([item], after) := by
  rw [readItems, hread, ok_bind]
  dsimp only
  rw [hrest]
  rfl

theorem readItems_more {item : Json} (hread : readValue fuel cs = .ok (item, rest))
    (hrest : skipBlanks rest = ',' :: more) :
    readItems (fuel + 1) cs
      = readItems fuel (skipBlanks more) >>= fun (items, after) => pure (item :: items, after) := by
  rw [readItems, hread, ok_bind]
  dsimp only
  rw [hrest]
  rfl

section

variable {key : String} {value : Json} {valued afterValue : List Char}

/-- What is done with a value once its key and the colon have been read. -/
theorem readMembers_keyed (hkey : readString cs = .ok (key, rest))
    (hcolon : skipBlanks rest = ':' :: valued) :
    readMembers (fuel + 1) ('"' :: cs)
      = readValue fuel (skipBlanks valued) >>= fun (value, afterValue) =>
        match skipBlanks afterValue with
        | '\x7d' :: after => pure ([(key, value)], after)
        | ',' :: more => readMembers fuel (skipBlanks more) >>= fun (members, after) =>
          pure ((key, value) :: members, after)
        | other => .error (.comma, other) := by
  rw [readMembers, hkey, ok_bind]
  dsimp only
  rw [hcolon]
  rfl

theorem readMembers_last (hkey : readString cs = .ok (key, rest))
    (hcolon : skipBlanks rest = ':' :: valued)
    (hread : readValue fuel (skipBlanks valued) = .ok (value, afterValue))
    (hrest : skipBlanks afterValue = '\x7d' :: after) :
    readMembers (fuel + 1) ('"' :: cs) = .ok ([(key, value)], after) := by
  rw [readMembers_keyed hkey hcolon, hread, ok_bind]
  dsimp only
  rw [hrest]
  rfl

theorem readMembers_more (hkey : readString cs = .ok (key, rest))
    (hcolon : skipBlanks rest = ':' :: valued)
    (hread : readValue fuel (skipBlanks valued) = .ok (value, afterValue))
    (hrest : skipBlanks afterValue = ',' :: more) :
    readMembers (fuel + 1) ('"' :: cs)
      = readMembers fuel (skipBlanks more) >>= fun (members, after) =>
        pure ((key, value) :: members, after) := by
  rw [readMembers_keyed hkey hcolon, hread, ok_bind]
  dsimp only
  rw [hrest]
  rfl

end

end

/-! ## Atoms -/

theorem readsBack_of_readAtom {j : Json} {c : Char} {cs : List Char}
    (hchars : ∀ level, chars l level j = c :: cs)
    (hc : isBlank c = false ∧ c ≠ ']' ∧ c ≠ '"' ∧ c ≠ '[' ∧ c ≠ '\x7b')
    (hread : ∀ rest, Ends rest → readAtom (c :: cs ++ rest) = .ok (j, rest)) :
    ReadsBack l j := by
  obtain ⟨hblank, hclose, hopen⟩ := hc
  refine ⟨fun level => ⟨c, cs, hchars level, hblank, hclose⟩, fun level fuel rest hfuel hr => ?_⟩
  rw [hchars, List.length_cons] at hfuel
  obtain ⟨fuel, rfl⟩ : ∃ less, fuel = less + 1 := ⟨fuel - 1, by omega⟩
  rw [hchars, ← hread rest hr]
  exact readValue_of_atom hopen

theorem readsBack_int {n : Int} (short : isOverlong n = false) : ReadsBack l (.int n) := by
  obtain ⟨c, cs, htext, hc⟩ := toString_eq_cons n
  refine readsBack_of_readAtom (fun _ => htext) ?_ fun rest hr => htext ▸ readAtom_int short hr
  rcases hc with rfl | hc
  · decide
  · have hne (d : Char) (hd : isDigit d = false) : c ≠ d := (ne_of_isDigit hc hd).symm
    refine ⟨?_, hne _ rfl, hne _ rfl, hne _ rfl, hne _ rfl⟩
    simp [isBlank, hne ' ' rfl, hne '\t' rfl, hne '\n' rfl, hne '\r' rfl]

theorem jsonString_append (s : String) (rest : List Char) :
    Text.jsonString s ++ rest = '"' :: (s.toList.flatMap Text.jsonChar ++ '"' :: rest) := by
  simp [Text.jsonString]

theorem readsBack_str (s : String) : ReadsBack l (.str s) := by
  refine ⟨fun level => ⟨'"', _, rfl, rfl, by decide⟩, fun level fuel rest hfuel _ => ?_⟩
  have hlength : 0 < (chars l level (.str s)).length := by
    rw [chars, Text.jsonString]
    simp
  obtain ⟨fuel, rfl⟩ : ∃ less, fuel = less + 1 := ⟨fuel - 1, by omega⟩
  rw [chars, jsonString_append, readValue_string, readString_jsonString]
  rfl

theorem readsBack_atom {j : Json} (h : isExact j = true) : ReadsBack l j := by
  cases j with
  | null => exact readsBack_of_readAtom (fun _ => rfl) (by decide) fun rest _ => readAtom_null rest
  | bool b =>
    cases b with
    | true =>
      exact readsBack_of_readAtom (fun _ => rfl) (by decide) fun rest _ => readAtom_bool true rest
    | false =>
      exact readsBack_of_readAtom (fun _ => rfl) (by decide) fun rest _ => readAtom_bool false rest
  | int n => exact readsBack_int (by simpa [isExact] using h)
  | str s => exact readsBack_str s
  | _ => cases h

/-! ## Arrays -/

/-- What stands between items is skipped. -/
theorem skipBlanks_itemGap (hl : l.Spaced) (rest : List Char) :
    ∃ blanks, skipBlanks (l.itemGap ++ rest) = ',' :: (blanks ++ rest) ∧
      ∀ c ∈ blanks, isBlank c = true := by
  obtain ⟨n, hgap⟩ := hl.itemGap
  rw [hgap]
  exact ⟨_, skipBlanks_cons rfl _, isBlank_of_mem_spaces⟩

theorem ends_itemGap (hl : l.Spaced) (rest : List Char) : Ends (l.itemGap ++ rest) := by
  obtain ⟨n, hgap⟩ := hl.itemGap
  rw [hgap]
  exact ends_cons (.inr (.inl rfl)) _

theorem length_itemGap_pos (hl : l.Spaced) : 0 < l.itemGap.length := by
  obtain ⟨n, hgap⟩ := hl.itemGap
  simp [hgap]

/-- Items, up to the bracket that closes them. -/
theorem readItems_chars (hl : l.Spaced) {closing rest : List Char} (hend : Ends closing)
    (hclose : skipBlanks closing = ']' :: rest) (level : Nat) (item : Json) (items : List Json)
    (each : ∀ j ∈ item :: items, ReadsBack l j) (fuel : Nat)
    (hfuel : 2 * ((chars l level item).length + (itemChars l level items).length) < fuel) :
    readItems fuel (chars l level item ++ (itemChars l level items ++ closing))
      = .ok (item :: items, rest) := by
  obtain ⟨fuel, rfl⟩ : ∃ less, fuel = less + 1 := ⟨fuel - 1, by omega⟩
  induction items generalizing item fuel with
  | nil =>
    obtain ⟨hitem, -⟩ := List.forall_mem_cons.mp each
    exact readItems_last (hitem.reads level fuel closing (by omega) hend) hclose
  | cons next items ih =>
    obtain ⟨hitem, hitems⟩ := List.forall_mem_cons.mp each
    obtain ⟨hnext, -⟩ := List.forall_mem_cons.mp hitems
    have hgap := length_itemGap_pos hl
    simp only [itemChars, List.length_append] at hfuel
    obtain ⟨fuel, rfl⟩ : ∃ less, fuel = less + 1 := ⟨fuel - 1, by omega⟩
    let others := chars l level next ++ (itemChars l level items ++ closing)
    have hassoc : itemChars l level (next :: items) ++ closing
        = l.itemGap ++ (l.line level ++ others) := by
      simp [itemChars, others]
    obtain ⟨blanks, hskip, hblanks⟩ := skipBlanks_itemGap hl (l.line level ++ others)
    have hread := hitem.reads level (fuel + 1) (l.itemGap ++ (l.line level ++ others)) (by omega)
      (ends_itemGap hl _)
    have hstart : skipBlanks (blanks ++ (l.line level ++ others)) = others := by
      rw [skipBlanks_append hblanks]
      exact hnext.skip (isBlank_of_mem_line hl level) level _
    rw [hassoc, readItems_more hread hskip, hstart, ih next hitems fuel (by omega)]
    rfl

theorem readsBack_array (hl : l.Spaced) {items : List Json}
    (each : ∀ item ∈ items, ReadsBack l item) : ReadsBack l (.array items) := by
  cases items with
  | nil =>
    refine ⟨fun level => ⟨'[', [']'], rfl, rfl, by decide⟩, fun level fuel rest hfuel _ => ?_⟩
    obtain ⟨fuel, rfl⟩ : ∃ less, fuel = less + 1 := ⟨fuel - 1, by simp [chars] at hfuel; omega⟩
    rfl
  | cons item items =>
    refine ⟨fun level => ⟨'[', _, rfl, rfl, by decide⟩, fun level fuel rest hfuel _ => ?_⟩
    rw [chars_array] at hfuel
    simp only [List.length_append, List.length_cons] at hfuel
    obtain ⟨fuel, rfl⟩ : ∃ less, fuel = less + 1 := ⟨fuel - 1, by omega⟩
    let closing := l.line level ++ ']' :: rest
    have hclose : skipBlanks closing = ']' :: rest := by
      rw [skipBlanks_append (isBlank_of_mem_line hl level), skipBlanks_cons rfl]
    have hassoc : chars l level (.array (item :: items)) ++ rest
        = '[' :: (l.line (level + 1) ++ (chars l (level + 1) item ++
          (itemChars l (level + 1) items ++ closing))) := by
      simp [chars_array, closing]
    have hitems := readItems_chars hl (ends_line hl level (.inl rfl) rest) hclose (level + 1) item
      items each fuel (by omega)
    obtain ⟨hitem, -⟩ := List.forall_mem_cons.mp each
    have hskip := hitem.skip (isBlank_of_mem_line hl (level + 1)) (level + 1)
      (itemChars l (level + 1) items ++ closing)
    obtain ⟨c, cs, hchars, -, hc⟩ := hitem.starts (level + 1)
    rw [hchars, List.cons_append] at hskip hitems
    rw [hassoc, hchars, List.cons_append, readValue_items hskip hc, hitems]
    rfl

/-! ## Objects -/

theorem skipBlanks_keyGap (hl : l.Spaced) (rest : List Char) :
    ∃ blanks, skipBlanks (l.keyGap ++ rest) = ':' :: (blanks ++ rest) ∧
      ∀ c ∈ blanks, isBlank c = true := by
  obtain ⟨n, hgap⟩ := hl.keyGap
  rw [hgap]
  exact ⟨_, skipBlanks_cons rfl _, isBlank_of_mem_spaces⟩

theorem member_append (level : Nat) (m : String × Json) (rest : List Char) :
    member l level m ++ rest = '"' :: (m.1.toList.flatMap Text.jsonChar ++
      '"' :: (l.keyGap ++ (chars l level m.2 ++ rest))) := by
  simp [member, Text.jsonString]

/-- What is read of a member, up to what follows it. -/
theorem read_member (hl : l.Spaced) {m : String × Json} (h : ReadsBack l m.2) (level : Nat)
    (rest : List Char) :
    ∃ afterKey valued,
      readString (m.1.toList.flatMap Text.jsonChar ++
        '"' :: (l.keyGap ++ (chars l level m.2 ++ rest))) = .ok (m.1, afterKey) ∧
      skipBlanks afterKey = ':' :: valued ∧ skipBlanks valued = chars l level m.2 ++ rest := by
  obtain ⟨blanks, hskip, hblanks⟩ := skipBlanks_keyGap hl (chars l level m.2 ++ rest)
  exact ⟨_, _, readString_jsonString m.1 _, hskip, h.skip hblanks level rest⟩

/-- Members, up to the brace that closes them. -/
theorem readMembers_chars (hl : l.Spaced) {closing rest : List Char} (hend : Ends closing)
    (hclose : skipBlanks closing = '\x7d' :: rest) (level : Nat) (m : String × Json)
    (members : List (String × Json)) (each : ∀ x ∈ m :: members, ReadsBack l x.2) (fuel : Nat)
    (hfuel : 2 * ((member l level m).length + (memberChars l level members).length) < fuel) :
    readMembers fuel (member l level m ++ (memberChars l level members ++ closing))
      = .ok (m :: members, rest) := by
  obtain ⟨fuel, rfl⟩ : ∃ less, fuel = less + 1 := ⟨fuel - 1, by omega⟩
  have hlength (x : String × Json) : (chars l level x.2).length ≤ (member l level x).length := by
    simp only [member, List.length_append]
    omega
  induction members generalizing m fuel with
  | nil =>
    obtain ⟨hm, -⟩ := List.forall_mem_cons.mp each
    obtain ⟨afterKey, valued, hkey, hcolon, hvalued⟩ := read_member hl hm level closing
    have hread := hm.reads level fuel closing (by have := hlength m; omega) hend
    rw [← hvalued] at hread
    rw [memberChars, List.nil_append, member_append]
    exact readMembers_last hkey hcolon hread hclose
  | cons next members ih =>
    obtain ⟨hm, hmembers⟩ := List.forall_mem_cons.mp each
    have hgap := length_itemGap_pos hl
    rw [memberChars_cons] at hfuel
    simp only [List.length_append] at hfuel
    obtain ⟨fuel, rfl⟩ : ∃ less, fuel = less + 1 := ⟨fuel - 1, by omega⟩
    let others := member l level next ++ (memberChars l level members ++ closing)
    have hassoc : memberChars l level (next :: members) ++ closing
        = l.itemGap ++ (l.line level ++ others) := by
      simp [memberChars_cons, others]
    obtain ⟨blanks, hskip, hblanks⟩ := skipBlanks_itemGap hl (l.line level ++ others)
    obtain ⟨afterKey, valued, hkey, hcolon, hvalued⟩ :=
      read_member hl hm level (l.itemGap ++ (l.line level ++ others))
    have hread := hm.reads level (fuel + 1) (l.itemGap ++ (l.line level ++ others))
      (by have := hlength m; omega) (ends_itemGap hl _)
    rw [← hvalued] at hread
    have hstart : skipBlanks (blanks ++ (l.line level ++ others)) = others := by
      rw [skipBlanks_append hblanks, skipBlanks_append (isBlank_of_mem_line hl level)]
      show skipBlanks (member l level next ++ _) = member l level next ++ _
      rw [member_append, skipBlanks_cons rfl]
    rw [hassoc, member_append, readMembers_more hkey hcolon hread hskip, hstart,
      ih next hmembers fuel (by omega)]
    rfl

theorem readsBack_object (hl : l.Spaced) {members : List (String × Json)}
    (names : (members.map Prod.fst).Nodup) (each : ∀ m ∈ members, ReadsBack l m.2) :
    ReadsBack l (.object members) := by
  cases members with
  | nil =>
    refine ⟨fun level => ⟨'\x7b', ['\x7d'], rfl, rfl, by decide⟩, fun level fuel rest hfuel _ => ?_⟩
    obtain ⟨fuel, rfl⟩ : ∃ less, fuel = less + 1 := ⟨fuel - 1, by simp [chars] at hfuel; omega⟩
    rfl
  | cons m members =>
    refine ⟨fun level => ⟨'\x7b', _, rfl, rfl, by decide⟩, fun level fuel rest hfuel _ => ?_⟩
    rw [chars_object] at hfuel
    simp only [List.length_append, List.length_cons] at hfuel
    obtain ⟨fuel, rfl⟩ : ∃ less, fuel = less + 1 := ⟨fuel - 1, by omega⟩
    let closing := l.line level ++ '\x7d' :: rest
    have hclose : skipBlanks closing = '\x7d' :: rest := by
      rw [skipBlanks_append (isBlank_of_mem_line hl level), skipBlanks_cons rfl]
    have hmembers := readMembers_chars hl (ends_line hl level (.inr rfl) rest) hclose (level + 1) m
      members each fuel (by omega)
    have hassoc : chars l level (.object (m :: members)) ++ rest
        = '\x7b' :: (l.line (level + 1) ++ (member l (level + 1) m ++
          (memberChars l (level + 1) members ++ closing))) := by
      simp [chars_object, closing]
    rw [member_append] at hassoc hmembers
    have hskip := skipBlanks_append (isBlank_of_mem_line hl (level + 1))
    rw [hassoc, readValue_members ((hskip _).trans (skipBlanks_cons rfl _)) (by decide), hmembers]
    show Except.ok (ofMembers (m :: members), rest) = _
    rw [ofMembers_of_nodup names]

/-! ## Texts -/

/-- JSON with nothing but integers for numbers, and no name twice in an object, is read back from
its text in any layout. -/
theorem readsBack_of_uniqueKeys (hl : l.Spaced) {j : Json} (hj : UniqueKeys isExact j) :
    ReadsBack l j := by
  induction hj with
  | atom of_sort => exact readsBack_atom of_sort
  | array each ih => exact readsBack_array hl ih
  | object names each ih => exact readsBack_object hl names ih

theorem read_text (hl : l.Spaced) {j : Json} (hj : UniqueKeys isExact j) :
    read (j.text l) = .ok j := by
  have hback := readsBack_of_uniqueKeys hl hj
  obtain ⟨c, cs, hchars, hblank, -⟩ := hback.starts 0
  have hread := hback.reads 0 (2 * (chars l 0 j).length + 2) [] (by omega) ends_nil
  have hmark : c ≠ '\ufeff' := by
    rintro rfl
    exact absurd (isWritten_chars hl hj 0 _ (hchars ▸ List.mem_cons_self ..)) (by decide)
  rw [List.append_nil, hchars] at hread
  have hwhole : readWholeText (c :: cs) = .ok j := by
    unfold readWholeText
    split
    · next heq =>
      cases heq
      exact absurd rfl hmark
    · rw [skipBlanks_cons hblank, hread]
      rfl
  rw [read, text, String.toList_ofList, hchars, hwhole]

end Json

end Conform
