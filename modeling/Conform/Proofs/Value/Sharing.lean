import Conform.Proofs.Value.Expressible
/-!
# Shared and cyclic values as JSON

A container that is merely shared does no harm: the JSON of a value is that of the copy in which
nothing is shared. Only a container inside itself has none. Main statement: `jsonText_of_shared`.
-/

set_option autoImplicit false

namespace Conform

variable {h : Heap}

/-! ## The copy without sharing -/

section

variable {links : Nat} {opened : List Nat} {v : Value}

theorem unfoldWith_ne_undefined {copy : Nat → Value} (present : v ≠ .undefined)
    (unlinked : ∀ a, v ≠ .link a) : unfoldWith copy v ≠ .undefined := by
  intro habsent
  cases v with
  | undefined => exact present rfl
  | link a => exact unlinked a rfl
  | _ => cases habsent

theorem JsonScalar.unfoldWith {copy : Nat → Value} (hv : JsonScalar v) :
    unfoldWith copy v = v := by
  cases hv <;> rfl

/-- A scalar is no link and has no parts. -/
theorem JsonScalar.not_hasLink (hv : JsonScalar v) (a : Nat) : ¬ HasLink a v := by
  intro hlink
  cases hlink with
  | here => cases hv
  | part kind mem =>
    rw [hv.parts_eq_nil kind] at mem
    cases mem

theorem unfoldInside_cell_ne_undefined (a : Nat) :
    h.unfoldInside links opened (h.cell a) ≠ .undefined := by
  obtain ⟨_, copy, -, hcopy⟩ := exists_inside_eq h links opened
  rw [hcopy]
  exact unfoldWith_ne_undefined (cell_ne_undefined h a) (cell_ne_link h a)

theorem unfoldInside_ne_undefined (present : v ≠ .undefined) :
    h.unfoldInside links opened v ≠ .undefined := by
  rcases v.link_or with ⟨a, rfl⟩ | unlinked
  · intro habsent
    cases links with
    | zero => cases habsent
    | succ links =>
      rw [Heap.unfoldInside, unfoldWith] at habsent
      by_cases hopen : opened.contains a = true
      · rw [if_pos hopen] at habsent
        cases habsent
      · rw [if_neg hopen] at habsent
        exact unfoldInside_cell_ne_undefined a habsent
  · obtain ⟨_, copy, -, hcopy⟩ := exists_inside_eq h links opened
    rw [hcopy]
    exact unfoldWith_ne_undefined present unlinked

/-- A copy goes on at a link that leads to a container which is not open yet. -/
theorem unfoldInside_link {a : Nat} (hi : h.Inside links opened (.link a)) :
    ∃ n, h.Inside n (a :: opened) (h.cell a) ∧
      h.unfoldInside links opened (.link a) = h.unfoldInside n (a :: opened) (h.cell a) ∧
      h.jsonInside links opened (.link a) = h.jsonInside n (a :: opened) (h.cell a) := by
  obtain ⟨hnew, n, rfl, hcell⟩ := hi.cell
  refine ⟨n, hcell, ?_, ?_⟩
  · rw [Heap.unfoldInside, unfoldWith, hnew, if_neg Bool.false_ne_true]
  · rw [Heap.jsonInside, jsonWith, hnew, if_neg Bool.false_ne_true]

end

section

variable {onLink : Nat → Option Json} {copy : Nat → Value} {h' : Heap} {f : Nat → Option Json}

theorem mem_unfoldAll {items : List Value} {w : Value} (hw : w ∈ unfoldAll copy items) :
    ∃ item ∈ items, w = unfoldWith copy item := by
  induction items with
  | nil => cases hw
  | cons item items ih =>
    rw [unfoldAll] at hw
    rcases List.mem_cons.mp hw with rfl | hw
    · exact ⟨item, List.mem_cons_self .., rfl⟩
    · obtain ⟨found, hmem, heq⟩ := ih hw
      exact ⟨found, List.mem_cons_of_mem item hmem, heq⟩

theorem mem_unfoldEntries {entries : List (Value × Value)} {w : Value × Value}
    (hw : w ∈ unfoldEntries copy entries) :
    ∃ e ∈ entries, w = (e.1, unfoldWith copy e.2) := by
  induction entries with
  | nil => cases hw
  | cons e entries ih =>
    rw [unfoldEntries] at hw
    rcases List.mem_cons.mp hw with rfl | hw
    · exact ⟨e, List.mem_cons_self .., rfl⟩
    · obtain ⟨found, hmem, heq⟩ := ih hw
      exact ⟨found, List.mem_cons_of_mem e hmem, heq⟩

theorem jsonItems_copy {items : List Value}
    (each : ∀ item ∈ items, item ≠ .undefined → unfoldWith copy item ≠ .undefined ∧
      jsonWith h' f (unfoldWith copy item) = jsonWith h onLink item) :
    jsonItems h' f (unfoldAll copy items) = jsonItems h onLink items := by
  induction items with
  | nil => rfl
  | cons item items ih =>
    obtain ⟨hitem, hitems⟩ := List.forall_mem_cons.mp each
    by_cases habsent : item = .undefined
    · subst habsent
      show jsonItems h' f (.undefined :: unfoldAll copy items) = _
      rw [jsonItems, jsonItems, ih hitems]
    · obtain ⟨hpresent, heq⟩ := hitem habsent
      rw [unfoldAll, jsonItems, jsonItems, heq, ih hitems]
      · exact habsent
      · exact hpresent

theorem jsonMembers_copy {entries : List (Value × Value)}
    (each : ∀ e ∈ entries, e.2 ≠ .undefined → unfoldWith copy e.2 ≠ .undefined ∧
      jsonWith h' f (unfoldWith copy e.2) = jsonWith h onLink e.2) :
    jsonMembers h' f (unfoldEntries copy entries) = jsonMembers h onLink entries := by
  induction entries with
  | nil => rfl
  | cons e entries ih =>
    obtain ⟨he, hentries⟩ := List.forall_mem_cons.mp each
    obtain ⟨key, v⟩ := e
    by_cases habsent : v = .undefined
    · subst habsent
      show jsonMembers h' f ((key, .undefined) :: unfoldEntries copy entries) = _
      rw [jsonMembers, jsonMembers, ih hentries]
    · obtain ⟨hpresent, heq⟩ := he habsent
      rw [unfoldEntries, jsonMembers, jsonMembers, heq, ih hentries]
      · exact habsent
      · exact hpresent

end

namespace Expressible

variable {links : Nat} {opened : List Nat} {v : Value}

/-- By induction on what JSON can hold; what is open already does not come again. -/
theorem copy_unlinked (hv : Expressible h v) (hi : h.Inside links opened v) (a : Nat) :
    ¬ HasLink a (h.unfoldInside links opened v) := by
  induction hv generalizing links opened with
  | absent =>
    obtain ⟨_, copy, -, hcopy⟩ := exists_inside_eq h links opened
    rw [hcopy]
    intro hlink
    cases hlink with
    | part kind => cases kind
  | scalar known =>
    obtain ⟨_, copy, -, hcopy⟩ := exists_inside_eq h links opened
    rw [hcopy, known.unfoldWith]
    exact known.not_hasLink a
  | list _ ih | tuple _ ih =>
    obtain ⟨_, copy, -, hcopy⟩ := exists_inside_eq h links opened
    intro hlink
    rw [hcopy, unfoldWith] at hlink
    cases hlink with
    | part kind mem inside =>
      cases kind
      obtain ⟨item, hmem, rfl⟩ := mem_unfoldAll mem
      exact ih item hmem (hi.part rfl hmem) (hcopy ▸ inside)
  | mapping _ _ ih =>
    obtain ⟨_, copy, -, hcopy⟩ := exists_inside_eq h links opened
    intro hlink
    rw [hcopy, unfoldWith] at hlink
    cases hlink with
    | part kind mem inside =>
      cases kind
      obtain ⟨e, he, rfl⟩ := List.mem_map.mp mem
      obtain ⟨found, hmem, rfl⟩ := mem_unfoldEntries he
      exact ih found hmem (hi.part rfl (Kind.mem_parts_object hmem)) (hcopy ▸ inside)
  | link _ ih =>
    obtain ⟨n, hcell, hunfold, -⟩ := unfoldInside_link hi
    rw [hunfold]
    exact ih hcell

/-- The copy has the JSON of the value, in whatever heap it is read. -/
theorem json_copy (hv : Expressible h v) (hi : h.Inside links opened v) (h' : Heap)
    (f : Nat → Option Json) :
    jsonWith h' f (h.unfoldInside links opened v) = h.jsonInside links opened v := by
  induction hv generalizing links opened with
  | absent =>
    obtain ⟨_, copy, hjson, hcopy⟩ := exists_inside_eq h links opened
    rw [hjson, hcopy]
    rfl
  | scalar known =>
    obtain ⟨_, copy, hjson, hcopy⟩ := exists_inside_eq h links opened
    rw [hjson, hcopy, known.unfoldWith]
    cases known <;> rfl
  | @list items _ ih | @tuple items _ ih =>
    obtain ⟨onLink, copy, hjson, hcopy⟩ := exists_inside_eq h links opened
    have each : ∀ item ∈ items, item ≠ .undefined → unfoldWith copy item ≠ .undefined ∧
        jsonWith h' f (unfoldWith copy item) = jsonWith h onLink item := by
      intro item hmem hpresent
      rw [← hcopy, ← hjson]
      exact ⟨unfoldInside_ne_undefined hpresent, ih item hmem (hi.part rfl hmem)⟩
    rw [hjson, hcopy, unfoldWith, jsonWith, jsonWith, jsonItems_copy each]
  | @mapping entries _ _ ih =>
    obtain ⟨onLink, copy, hjson, hcopy⟩ := exists_inside_eq h links opened
    have each : ∀ e ∈ entries, e.2 ≠ .undefined → unfoldWith copy e.2 ≠ .undefined ∧
        jsonWith h' f (unfoldWith copy e.2) = jsonWith h onLink e.2 := by
      intro e hmem hpresent
      rw [← hcopy, ← hjson]
      have hinside : h.Inside links opened e.2 := hi.part rfl (Kind.mem_parts_object hmem)
      exact ⟨unfoldInside_ne_undefined hpresent, ih e hmem hinside⟩
    rw [hjson, hcopy, unfoldWith, jsonWith, jsonWith, jsonMembers_copy each]
  | link _ ih =>
    obtain ⟨n, hcell, hunfold, hjson⟩ := unfoldInside_link hi
    rw [hunfold, hjson]
    exact ih hcell

end Expressible

/-! ## Any value -/

/-- A value from which no table can be come to, however its containers are shared, has a text as
JSON unless it is absent, or one comes from it to a container inside itself, to a leaf that JSON
does not know or to an entry under a key that JSON does not know; entries and items that are absent
are passed by. If it has a text, then its copy has no links, and the same text. Wherever the
traversal ends, the containers that are open are just those that were open when it began. -/
theorem jsonText_of_shared {v : Value} (tableless : Tableless h v) :
    (h.jsonText? v = none ↔ v = .undefined ∨ ∃ w, h.Reaches v w ∧ h.Inexpressible w) ∧
      (h.jsonText? v ≠ none → (∀ a, ¬ HasLink a (h.unfold v)) ∧
        ∀ h' : Heap, h'.jsonText? (h.unfold v) = h.jsonText? v) ∧
      ∀ depth w opened, (h.openJson depth w opened).2 = opened := by
  have htext : h.jsonText? v = none ↔ h.json? v = none := by
    rw [Heap.jsonText?, Option.map_eq_none_iff]
  refine ⟨htext.trans (json?_eq_none_iff tableless), fun hsome => ?_, fun depth w opened =>
    congrArg Prod.snd (openJson_finds h depth w opened)⟩
  have hfound : h.jsonInside (h.size + 1) [] v ≠ none := json?_eq h v ▸ mt htext.mpr hsome
  have hexpressible : Expressible h v := expressible_of_some tableless hfound
  have hinside : h.Inside (h.size + 1) [] v := .start hexpressible.acyclic
  refine ⟨hexpressible.copy_unlinked hinside, fun h' => ?_⟩
  obtain ⟨onLink, -, hjson, -⟩ := exists_inside_eq h' (h'.size + 1) []
  have hcopy : h'.json? (h.unfold v) = h.json? v := by
    rw [json?_eq, json?_eq, hjson]
    exact hexpressible.json_copy hinside h' onLink
  rw [Heap.jsonText?, Heap.jsonText?, hcopy]

/-! ### An example -/

/-- A list that two places share, and one that is inside itself. -/
def tangledHeap : Heap := .ofCells #[.list [.int 1, .undefined], .list [.null, .link 1]]

def twiceShared : Value := .mapping [(.str "a", .link 0), (.str "b", .tuple [.link 0])]

theorem twiceShared_expressible : Expressible tangledHeap twiceShared := by
  have shared : Expressible tangledHeap (.link 0) :=
    .link (.list (List.forall_mem_cons.mpr
      ⟨.scalar (.int 1 rfl), List.forall_mem_singleton.mpr .absent⟩))
  refine .mapping (fun e he _ => ?_) (List.forall_mem_cons.mpr ⟨shared, ?_⟩)
  · rcases List.mem_cons.mp he with rfl | he
    · exact .str "a"
    · cases List.mem_singleton.mp he
      exact .str "b"
  · exact List.forall_mem_singleton.mpr (.tuple (List.forall_mem_singleton.mpr shared))

theorem twiceShared_tableless : Tableless tangledHeap twiceShared :=
  twiceShared_expressible.tableless

theorem tangled_tableless : Tableless tangledHeap (.link 1) := by
  have reached {w : Value} (hw : tangledHeap.Reaches (.link 1) w) : w = .link 1 ∨ w = .null := by
    induction hw with
    | refl => exact .inl rfl
    | tail _ hpart ih =>
      rcases ih with rfl | rfl
      · have hitem : (Value.list [.null, .link 1]).Holds _ := hpart
        simpa [or_comm] using (Value.holds_list_iff.mp hitem).1
      · exact absurd hpart (Value.not_holds_of_flat rfl)
  intro w hw
  rcases reached hw with rfl | rfl <;> rfl

/-- What is merely shared is written twice, and what is inside itself is not written. -/
theorem jsonText_of_shared_tangled :
    (Tableless tangledHeap twiceShared ∧
      tangledHeap.jsonText? twiceShared = some "\x7b\"a\":[1,null],\"b\":[[1,null]]\x7d" ∧
      ∀ h' : Heap, h'.jsonText? (tangledHeap.unfold twiceShared)
        = some "\x7b\"a\":[1,null],\"b\":[[1,null]]\x7d") ∧
    Tableless tangledHeap (.link 1) ∧ tangledHeap.jsonText? (.link 1) = none ∧
      ∃ w, tangledHeap.Reaches (.link 1) w ∧ tangledHeap.Inexpressible w := by
  have htext : tangledHeap.jsonText? twiceShared
      = some "\x7b\"a\":[1,null],\"b\":[[1,null]]\x7d" := by decide
  have hcopy := (jsonText_of_shared twiceShared_tableless).2.1 (by simp [htext])
  have hnone : tangledHeap.jsonText? (.link 1) = none := rfl
  have hreached := (jsonText_of_shared tangled_tableless).1.mp hnone
  exact ⟨⟨twiceShared_tableless, htext, fun h' => (hcopy.2 h').trans htext⟩,
    tangled_tableless, hnone, hreached.resolve_left (by simp)⟩

/-! ### A key with too many digits -/

/-- The key is the least number that has no text. -/
def longKey : Value := .mapping [(.int (tenTo digitLimit), .int 1)]

theorem longKey_reaches {w : Value} (hw : Heap.empty.Reaches longKey w) :
    w = longKey ∨ w = .int 1 := by
  induction hw with
  | refl => exact .inl rfl
  | tail _ hpart ih =>
    rcases ih with rfl | rfl
    · obtain ⟨key, hentry, -⟩ := Value.holds_mapping_iff.mp hpart
      exact .inr (congrArg Prod.snd (List.mem_singleton.mp hentry))
    · exact absurd hpart (Value.not_holds_of_flat rfl)

theorem longKey_flawed : longKey.Flawed := by
  have hlong : isOverlong (tenTo digitLimit) = true :=
    isOverlong_iff.mpr (Int.natAbs_natCast (tenTo digitLimit)).ge
  refine .key (List.mem_singleton_self _) nofun fun known => ?_
  cases known with
  | int _ short => cases hlong.symm.trans short

theorem longKey_noCycle {w : Value} (hw : w = longKey ∨ w = .int 1) :
    ¬ Relation.TransGen Heap.empty.Contains w w := by
  have nothingInside {w : Value} : ¬ Heap.empty.Contains (.int 1) w :=
    Value.not_holds_of_flat rfl
  intro hcycle
  obtain ⟨next, hnext, hback⟩ := Relation.TransGen.head'_iff.mp hcycle
  rcases hw with rfl | rfl
  · obtain ⟨key, hentry, -⟩ := Value.holds_mapping_iff.mp hnext
    cases List.mem_singleton.mp hentry
    rcases Relation.ReflTransGen.cases_head hback with heq | ⟨_, hpart, -⟩
    · cases heq
    · exact nothingInside hpart
  · exact nothingInside hnext

theorem longKey_tableless : Tableless Heap.empty longKey := by
  intro w hw
  rcases longKey_reaches hw with rfl | rfl <;> rfl

/-- Of a mapping whose only key is a number there is no text, although nothing in it is inside
itself, its leaf has a text, and its key is a number. -/
theorem longKey_unwritten :
    Heap.empty.jsonText? longKey = none ∧ longKey ≠ .undefined ∧
      ∀ w, Heap.empty.Reaches longKey w →
        ¬ Relation.TransGen Heap.empty.Contains w w ∧
        (w.isContainer = false → JsonScalar w) ∧
        ∀ entries, w = .mapping entries → ∀ e ∈ entries, ∃ n, e.1 = .int n := by
  refine ⟨?_, Value.noConfusion, fun w hw => ⟨longKey_noCycle (longKey_reaches hw), ?_, ?_⟩⟩
  · rw [Heap.jsonText?, Option.map_eq_none_iff, json?_eq_none_iff longKey_tableless]
    exact .inr ⟨longKey, .refl, .inl longKey_flawed⟩
  · rcases longKey_reaches hw with rfl | rfl
    · intro flat
      cases flat
    · exact fun _ => .int 1 rfl
  · rcases longKey_reaches hw with rfl | rfl
    · intro entries heq e he
      cases heq
      exact ⟨_, congrArg Prod.fst (List.mem_singleton.mp he)⟩
    · intro entries heq
      cases heq

end Conform
