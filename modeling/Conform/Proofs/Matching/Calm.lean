import Conform.Proofs.Matching.Transfer
/-!
# Values at which nothing fails

Matching goes from a value to its items and to what is read under declared names. If a class of
values is closed under both, and all predicates of a schema answer to the values in the class, then
nothing fails at any of them.
-/

set_option autoImplicit false

namespace Conform

/-- A name that an object schema declares, which is a schema or within it. -/
def Heap.Declares (h : Heap) (schema name : Value) : Prop :=
  ∃ node entries, Within h node schema ∧ h.kind? node = some (.object entries) ∧
    name ∈ entries.map Prod.fst

theorem Heap.Declares.ofPart {h : Heap} {schema part name : Value} {k : Kind}
    (hd : h.Declares part name) (hk : h.kind? schema = some k) (hp : part ∈ k.parts) :
    h.Declares schema name := by
  obtain ⟨node, entries, within, kind, mem⟩ := hd
  exact ⟨node, entries, .inside hk hp within, kind, mem⟩

theorem declares_of_mem {h : Heap} {schema : Value} {entries : List (Value × Value)}
    {e : Value × Value} (hk : h.kind? schema = some (.object entries)) (he : e ∈ entries) :
    h.Declares schema e.1 :=
  ⟨schema, entries, .here, hk, List.mem_map_of_mem he⟩

/-- What holds of the names of an object schema, and of those that its parts declare. -/
theorem forall_declares_of_kind {h : Heap} {p : Value → Prop} {schema : Value} {k : Kind}
    (hk : h.kind? schema = some k)
    (here : ∀ entries, k = .object entries → ∀ e ∈ entries, p e.1)
    (parts : ∀ part ∈ k.parts, ∀ name, h.Declares part name → p name) (name : Value)
    (hd : h.Declares schema name) : p name := by
  obtain ⟨node, entries, within, kind, mem⟩ := hd
  cases within with
  | here =>
    cases hk.symm.trans kind
    obtain ⟨e, he, rfl⟩ := List.mem_map.mp mem
    exact here entries rfl e he
  | @inside _ part _ kind' hp within =>
    cases hk.symm.trans kind'
    exact parts part hp name ⟨node, entries, within, kind, mem⟩

/-- Items of values in the class are in it, and so is what is read of objects under declared
names. -/
structure ClosedUnderSteps (h : Heap) (declared p : Value → Prop) : Prop where
  items : ∀ value items, p value → h.items? value = some items → ∀ item ∈ items, p item
  reads : ∀ name, declared name → ∀ value, p value → value.isPlainObject = true →
    h.isArray value = false → ∃ read, h.property value name = .ok read ∧ p read

/-- The parts of a schema are matched against values in the class. -/
theorem ClosedUnderSteps.of_mem_reached {s : Setting} {declared p : Value → Prop}
    (hp : ClosedUnderSteps s.heap declared p) {value : Value} (hv : p value) {k : Kind}
    (hd : ∀ entries, k = .object entries → ∀ e ∈ entries, declared e.1) {task : Value × Value}
    (ht : task ∈ s.reached value k) : p task.2 := by
  cases k with
  | array members =>
    replace ht : task ∈ (s.pairs members value).getD [] := ht
    cases hpairs : s.pairs members value with
    | none =>
      rw [hpairs] at ht
      cases ht
    | some pairs =>
      rw [hpairs] at ht
      obtain ⟨items, hitems, hpairing⟩ := Option.bind_eq_some_iff.mp hpairs
      exact hp.items value items hv hitems task.2 (mem_of_mem_pairing hpairing ht).2
  | union members =>
    obtain ⟨member, -, rfl⟩ := List.mem_map.mp ht
    exact hv
  | object entries =>
    rw [Setting.reached] at ht
    split at ht
    · cases ht
    · next hplain =>
      obtain ⟨hobject, hsingle⟩ := plain_of_not_refused hplain
      obtain ⟨e, he, hread⟩ := List.mem_filterMap.mp ht
      obtain ⟨read, hok, hpread⟩ := hp.reads e.1 (hd entries rfl e he) value hv hobject hsingle
      rw [hok] at hread
      cases hread
      exact hpread
  | _ => cases ht

theorem calm_of_closedUnderSteps {s : Setting} {w : Validator} {declared p : Value → Prop}
    (hp : ClosedUnderSteps s.heap declared p) {schema : Value} (h : WellFormed s.heap schema)
    (hd : ∀ name, s.heap.Declares schema name → declared name)
    (answers : ∀ node, Within s.heap node schema → s.heap.kind? node = some .predicate →
      ∀ value, p value → ∃ passed, s.Answers w node value (.ok passed))
    (value : Value) (hv : p value) : Calm s w schema value := by
  induction h generalizing value with
  | @intro schema k kind parts ih =>
    have hnames (entries : List (Value × Value)) (hk : k = .object entries)
        (e : Value × Value) (he : e ∈ entries) : declared e.1 := by
      subst hk
      exact hd e.1 (declares_of_mem kind he)
    refine not_raises_of_reached kind ?_ ?_ ?_
    · rintro rfl
      exact answers schema .here kind value hv
    · intro entries hk hobject hsingle e he
      obtain ⟨read, hok, -⟩ := hp.reads e.1 (hnames entries hk e he) value hv hobject hsingle
      exact ⟨read, hok⟩
    · intro task ht
      have hm : task.1 ∈ k.parts := Setting.mem_parts_of_mem_tasks (Setting.mem_tasks_of_mem_reached ht)
      exact ih task.1 hm (fun name hn => hd name (hn.ofPart kind hm))
        (fun node within => answers node (.inside kind hm within)) task.2
        (hp.of_mem_reached hv hnames ht)

end Conform
