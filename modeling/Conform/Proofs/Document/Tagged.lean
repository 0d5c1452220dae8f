import Conform.Document.Decoding
import Conform.Document.Encoding
import Conform.Proofs.Schema.Kind
import Conform.Proofs.Value.Equality
/-!
# Nodes of a document

A node is written as a tag with a payload, and read by its tag. Where every part of a container
is written and read back, all of them are, in order; and a document without links is read as it
stands.
-/

set_option autoImplicit false

namespace Conform

open Document

variable {h : Heap} {r : Registry}

/-! ## Values without links -/

theorem unfoldAll_eq {follow : Nat → Value} {items : List Value}
    (heach : ∀ item ∈ items, unfoldWith follow item = item) : unfoldAll follow items = items := by
  induction items with
  | nil => rfl
  | cons item items ih =>
    rw [unfoldAll, heach item (List.mem_cons_self ..),
      ih fun x hx => heach x (List.mem_cons_of_mem item hx)]

theorem unfoldEntries_eq {follow : Nat → Value} {entries : List (Value × Value)}
    (heach : ∀ e ∈ entries, unfoldWith follow e.2 = e.2) :
    unfoldEntries follow entries = entries := by
  induction entries with
  | nil => rfl
  | cons e entries ih =>
    rw [unfoldEntries, heach e (List.mem_cons_self ..),
      ih fun x hx => heach x (List.mem_cons_of_mem e hx)]

theorem firstUnhashable_eq_none {items : List Value} (hi : firstUnhashable items = none) :
    ∀ item ∈ items, item.unhashable? = none := by
  induction items with
  | nil => exact fun item hitem => by cases hitem
  | cons first items ih =>
    rw [firstUnhashable] at hi
    cases hfirst : first.unhashable? with
    | some part =>
      rw [hfirst] at hi
      cases hi
    | none =>
      rw [hfirst] at hi
      intro item hitem
      rcases List.mem_cons.mp hitem with rfl | hitem
      · exact hfirst
      · exact ih hi item hitem

/-- What can be a key holds no links. -/
theorem unfoldWith_hashable {follow : Nat → Value} {v : Value} (hv : v.unhashable? = none) :
    unfoldWith follow v = v := by
  induction v using Value.kind_induction with
  | step v ih =>
    cases v with
    | list items | mapping entries | union members | link a => cases hv
    | tuple items =>
      have heach : ∀ item ∈ items, unfoldWith follow item = item := fun item hitem =>
        ih (.array items) rfl item hitem (firstUnhashable_eq_none hv item hitem)
      rw [unfoldWith, unfoldAll_eq heach]
    | object handle content =>
      cases content with
      | proxy entries => cases hv
      | _ => rfl
    | _ => rfl

/-! ## Tagged nodes -/

theorem ofValue?_name (tag : DocumentTag) : DocumentTag.ofValue? h (.str tag.name) = some tag := by
  unfold DocumentTag.ofValue?
  simp only [equal_str]
  cases tag <;> rfl

theorem decodeNode_tagged (location : List DocumentStep) (tag : DocumentTag) (payload : Value) :
    decodeNode h r location (tagged tag payload)
      = decodePayload h r location (.str tag.name) payload := by
  rw [tagged, decodeNode, decodeTagged, typeKey, schemaKey, equal_str, equal_str,
    beq_self_eq_true, beq_self_eq_true]
  rfl

theorem unfoldWith_tagged {follow : Nat → Value} {payload : Value} (tag : DocumentTag)
    (hp : unfoldWith follow payload = payload) :
    unfoldWith follow (tagged tag payload) = tagged tag payload := by
  show Value.mapping [(typeKey, .str tag.name), (schemaKey, unfoldWith follow payload)] = _
  rw [hp]
  rfl

theorem hashable_of_find? {name p : Value} (hp : r.find? h name = some p) :
    name.unhashable? = none := by
  unfold Registry.find? at hp
  split at hp
  · cases hp
  · next hname => exact hname

theorem decodePayload_predicate {name p : Value} (hp : r.find? h name = some p)
    (location : List DocumentStep) :
    decodePayload h r location (.str DocumentTag.predicate.name) name = .ok p := by
  have hflat : decodeFlat h r location (.str DocumentTag.predicate.name)
      (DocumentTag.ofValue? h (.str DocumentTag.predicate.name)) name = .ok p := by
    rw [ofValue?_name, decodeFlat, hp]
  have hname := hashable_of_find? hp
  cases name with
  | list items | mapping entries | link a => cases hname
  | object handle content =>
    cases content with
    | proxy entries => cases hname
    | _ => exact hflat
  | _ => exact hflat

theorem decodePayload_source (location : List DocumentStep) (source : String) :
    decodePayload h r location (.str DocumentTag.regexp.name) (.str source)
      = decodePattern location source := by
  have hflat : decodeFlat h r location (.str DocumentTag.regexp.name)
      (DocumentTag.ofValue? h (.str DocumentTag.regexp.name)) (.str source)
      = decodePattern location source := by
    rw [ofValue?_name]
    rfl
  exact hflat

theorem source_of_ofSource {source : String} {p : Pattern}
    (compiled : Pattern.ofSource source .off = .ok p) : p.source = source := by
  unfold Pattern.ofSource at compiled
  cases hprogram : Pattern.compile source .off with
  | error fault =>
    rw [hprogram] at compiled
    cases compiled
  | ok program =>
    rw [hprogram] at compiled
    cases compiled
    rfl

theorem encodeWith_callable {onLink : Nat → Except Failure Value} {p : Value}
    (hp : p.isCallable = true) : encodeWith h onLink p = .ok (ofPredicate p) := by
  rcases callable_cases hp with
    ⟨c, rfl⟩ | ⟨handle, f, rfl⟩ | ⟨handle, name, className, signature, code, own, rfl⟩
  all_goals rfl

/-! ## Entries put in one after the other -/

section

variable {P : Value → Value → Prop}
  (hrename : ∀ name v old u, P name v → P old u → h.equal name old = true → P old v)
include hrename

theorem forall_insert {name v : Value} {entries : List (Value × Value)} (hv : P name v)
    (hentries : ∀ e ∈ entries, P e.1 e.2) : ∀ e ∈ h.insert name v entries, P e.1 e.2 := by
  unfold Heap.insert
  split
  · refine List.forall_mem_map.mpr fun e he => ?_
    by_cases hequal : h.equal name e.1 = true
    · rw [if_pos hequal]
      exact hrename name v e.1 e.2 hv (hentries e he) hequal
    · rw [if_neg hequal]
      exact hentries e he
  · exact List.forall_mem_append.mpr ⟨hentries, List.forall_mem_singleton.mpr hv⟩

/-- What holds of entries and of those put in holds of all, if it holds under an older name, too,
that equals a new one. -/
theorem forall_putIn (l entries : List (Value × Value)) (hl : ∀ e ∈ l, P e.1 e.2)
    (hentries : ∀ e ∈ entries, P e.1 e.2) :
    ∀ e ∈ l.foldl (fun entries e => h.insert e.1 e.2 entries) entries, P e.1 e.2 := by
  induction l generalizing entries with
  | nil => exact hentries
  | cons e l ih =>
    obtain ⟨he, hl⟩ := List.forall_mem_cons.mp hl
    exact ih _ hl (forall_insert hrename he hentries)

theorem forall_ofPairs {pairs : List (Value × Value)} (hp : ∀ e ∈ pairs, P e.1 e.2) :
    ∀ e ∈ h.ofPairs pairs, P e.1 e.2 :=
  forall_putIn hrename pairs [] hp (List.forall_mem_nil _)

end

/-! ## Registries -/

/-- What is found under a name stands under one that equals it. -/
theorem exists_entry_of_find? {name p : Value} (hp : r.find? h name = some p) :
    ∃ key, (key, p) ∈ r.entries ∧ h.equal name key = true := by
  unfold Registry.find? at hp
  split at hp
  · cases hp
  · obtain ⟨e, hfound, rfl⟩ := Option.map_eq_some_iff.mp hp
    unfold Heap.find? at hfound
    have hequal := List.find?_some hfound
    exact ⟨e.1, List.mem_of_find?_eq_some hfound, hequal⟩

/-- What holds of all entries of a registry: it holds of the built-in predicates and of those that
are put in, also under an older name that equals theirs. -/
theorem forall_extended {P : Value → Value → Prop} {others : List (Value × Value)}
    (hbuiltIn : ∀ c, P (.str c.name) (.check c)) (hothers : ∀ e ∈ others, P e.1 e.2)
    (hrename : ∀ name p old q, P name p → P old q → h.equal name old = true → P old p) :
    ∀ e ∈ (Registry.extended h others).entries, P e.1 e.2 :=
  forall_putIn hrename others Registry.builtIn hothers
    (List.forall_mem_map.mpr fun c _ => hbuiltIn c)

/-! ## Parts of a document -/

section

variable {onLink : Nat → Except Failure Value} {α : Type} {l : List α}
  {key schema document copy : α → Value}

theorem encodeAll_map (heach : ∀ a ∈ l, encodeWith h onLink (schema a) = .ok (document a)) :
    encodeAll h onLink (l.map schema) = .ok (l.map document) := by
  induction l with
  | nil => rfl
  | cons a l ih =>
    rw [List.map_cons, encodeAll, heach a (List.mem_cons_self ..),
      ih fun x hx => heach x (List.mem_cons_of_mem a hx)]
    rfl

theorem encodeEntries_map (hkey : ∀ a ∈ l, ∃ name, key a = .str name)
    (heach : ∀ a ∈ l, encodeWith h onLink (schema a) = .ok (document a)) :
    encodeEntries h onLink (l.map fun a => (key a, schema a))
      = .ok (l.map fun a => (key a, document a)) := by
  induction l with
  | nil => rfl
  | cons a l ih =>
    obtain ⟨name, hname⟩ := hkey a (List.mem_cons_self ..)
    rw [List.map_cons, encodeEntries, heach a (List.mem_cons_self ..),
      ih (fun x hx => hkey x (List.mem_cons_of_mem a hx))
        fun x hx => heach x (List.mem_cons_of_mem a hx), List.map_cons, hname]
    rfl

theorem decodeItems_map
    (heach : ∀ a ∈ l, ∀ location, decodeNode h r location (document a) = .ok (copy a))
    (location : List DocumentStep) (i : Nat) :
    decodeItems h r location i (l.map document) = .ok (l.map copy) := by
  induction l generalizing i with
  | nil => rfl
  | cons a l ih =>
    rw [List.map_cons, decodeItems, heach a (List.mem_cons_self ..),
      ih (fun x hx => heach x (List.mem_cons_of_mem a hx)) (i + 1)]
    rfl

theorem decodeEntries_map
    (heach : ∀ a ∈ l, ∀ location, decodeNode h r location (document a) = .ok (copy a))
    (location : List DocumentStep) :
    decodeEntries h r location (l.map fun a => (key a, document a))
      = .ok (l.map fun a => (key a, copy a)) := by
  induction l with
  | nil => rfl
  | cons a l ih =>
    rw [List.map_cons, decodeEntries, heach a (List.mem_cons_self ..),
      ih fun x hx => heach x (List.mem_cons_of_mem a hx)]
    rfl

end

end Conform
