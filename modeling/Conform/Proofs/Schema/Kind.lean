import Conform.Value.Basic
/-!
# Kinds of schemas

A schema is a type name, a predicate, a pattern, an array, a union or an object, whatever
container it is written as. It is well formed when this holds of it and of all its parts; links
are followed, and a well-formed schema does not contain itself.
-/

set_option autoImplicit false

namespace Conform

/-- What kind of schema a value is. -/
inductive Kind where
  | atom (name : String)
  | predicate
  | pattern (p : Pattern)
  | array (members : List Value)
  | union (members : List Value)
  | object (entries : List (Value × Value))

namespace Kind

/-- The schemas inside a schema. -/
def parts : Kind → List Value
  | .array members => members
  | .union members => members
  | .object entries => entries.map Prod.snd
  | _ => []

theorem mem_parts_object {entries : List (Value × Value)} {e : Value × Value} (h : e ∈ entries) :
    e.2 ∈ (Kind.object entries).parts :=
  List.mem_map.mpr ⟨e, h, rfl⟩

end Kind

/-- The kind of a schema that is not a link. -/
def Value.kind? : Value → Option Kind
  | .str name => some (.atom name)
  | .check _ => some .predicate
  | .list members => some (.array members)
  | .tuple members => some (.array members)
  | .union members => some (.union members)
  | .mapping entries => some (.object entries)
  | .object _ (.strMember _ name) => some (.atom name)
  | .object _ (.host _) => some .predicate
  | .object _ (.function ..) => some .predicate
  | .object _ (.pattern p) => some (.pattern p)
  | .object _ (.set members) => some (.union members)
  | .object _ (.frozenSet members) => some (.union members)
  | .object _ (.proxy entries) => some (.object entries)
  | _ => none

/-- The kind of a schema. -/
def Heap.kind? (h : Heap) (v : Value) : Option Kind := (h.resolve v).kind?

/-! ## Links -/

theorem Value.link_or (v : Value) : (∃ a, v = .link a) ∨ ∀ a, v ≠ .link a := by
  cases v with
  | link a => exact .inl ⟨a, rfl⟩
  | _ => exact .inr fun _ hv => by cases hv

section

variable (h : Heap)

theorem cell_cases (a : Nat) :
    (∃ items, h.cell a = .list items) ∨ ∃ entries, h.cell a = .mapping entries := by
  unfold Heap.cell
  split
  · next shared _ =>
    cases shared with
    | list items => exact .inl ⟨items, rfl⟩
    | mapping entries => exact .inr ⟨entries, rfl⟩
  · exact .inl ⟨[], rfl⟩

theorem cell_ne_link (a b : Nat) : h.cell a ≠ .link b := by
  rcases cell_cases h a with ⟨items, hcell⟩ | ⟨entries, hcell⟩ <;> rw [hcell] <;> nofun

theorem resolve_cell (a : Nat) : h.resolve (h.cell a) = h.cell a := by
  rcases cell_cases h a with ⟨items, hcell⟩ | ⟨entries, hcell⟩ <;> rw [hcell] <;> rfl

theorem kind?_link (a : Nat) : h.kind? (.link a) = h.kind? (h.cell a) := by
  rw [Heap.kind?, Heap.kind?, resolve_cell]
  rfl

theorem exists_kind_cell (a : Nat) :
    (∃ members, h.kind? (h.cell a) = some (.array members)) ∨
      ∃ entries, h.kind? (h.cell a) = some (.object entries) := by
  rw [Heap.kind?, resolve_cell]
  rcases cell_cases h a with ⟨items, hcell⟩ | ⟨entries, hcell⟩ <;> rw [hcell]
  · exact .inl ⟨items, rfl⟩
  · exact .inr ⟨entries, rfl⟩

theorem resolve_of_ne_link {v : Value} (hv : ∀ a, v ≠ .link a) : h.resolve v = v := by
  cases v with
  | link a => exact absurd rfl (hv a)
  | _ => rfl

theorem kind?_cell_ne_none (a : Nat) : h.kind? (h.cell a) ≠ none := by
  rcases exists_kind_cell h a with ⟨members, hk⟩ | ⟨entries, hk⟩ <;> rw [hk] <;> nofun

/-- A value of no kind is no link, and of no kind by itself. -/
theorem ne_link_of_no_kind {v : Value} (hk : h.kind? v = none) :
    (∀ a, v ≠ .link a) ∧ v.kind? = none := by
  have hlink : ∀ a, v ≠ .link a := by
    rintro a rfl
    exact kind?_cell_ne_none h a ((kind?_link h a).symm.trans hk)
  rw [Heap.kind?, resolve_of_ne_link h hlink] at hk
  exact ⟨hlink, hk⟩

/-- Predicates are not shared as containers are. -/
theorem kind?_cell_ne_predicate (a : Nat) : h.kind? (h.cell a) ≠ some .predicate := by
  rcases exists_kind_cell h a with ⟨members, hk⟩ | ⟨entries, hk⟩ <;> rw [hk] <;> nofun

theorem kind?_of_kind {v : Value} {k : Kind} (hk : v.kind? = some k) : h.kind? v = some k := by
  have hv : ∀ a, v ≠ .link a := by
    rintro a rfl
    cases hk
  rw [Heap.kind?, resolve_of_ne_link h hv, hk]

theorem resolve_of_predicate {v : Value} (hk : h.kind? v = some .predicate) : h.resolve v = v := by
  refine resolve_of_ne_link h ?_
  rintro a rfl
  exact kind?_cell_ne_predicate h a ((kind?_link h a).symm.trans hk)

end

/-! ## Well-formed schemas -/

/-- A schema every node of which is of some kind, to any depth. -/
inductive WellFormed (h : Heap) : Value → Prop
  | intro {v : Value} {k : Kind} (kind : h.kind? v = some k)
      (parts : ∀ part ∈ k.parts, WellFormed h part) : WellFormed h v

/-- A schema within a schema, links followed. -/
inductive Within (h : Heap) (node : Value) : Value → Prop
  | here : Within h node node
  | inside {v part : Value} {k : Kind} (kind : h.kind? v = some k) (mem : part ∈ k.parts)
      (within : Within h node part) : Within h node v

/-- What is within a container is within a link to it, but for the container itself. -/
theorem within_cell {h : Heap} {node : Value} {a : Nat} (hn : Within h node (h.cell a)) :
    node = h.cell a ∨ Within h node (.link a) := by
  cases hn with
  | here => exact .inl rfl
  | inside kind mem within => exact .inr (.inside ((kind?_link h a).trans kind) mem within)

theorem WellFormed.link {h : Heap} {a : Nat} (hv : WellFormed h (h.cell a)) :
    WellFormed h (.link a) := by
  cases hv with
  | intro kind parts => exact .intro ((kind?_link h a).trans kind) parts

theorem WellFormed.part {h : Heap} {v part : Value} {k : Kind} (hv : WellFormed h v)
    (hk : h.kind? v = some k) (hp : part ∈ k.parts) : WellFormed h part := by
  cases hv with
  | intro kind parts =>
    cases hk.symm.trans kind
    exact parts part hp

theorem WellFormed.exists_kind {h : Heap} {v node : Value} (hv : WellFormed h v)
    (hn : Within h node v) : ∃ k, h.kind? node = some k := by
  induction hn with
  | here =>
    cases hv with
    | intro kind _ => exact ⟨_, kind⟩
  | inside kind mem _ ih => exact ih (hv.part kind mem)

/-- What holds of a schema of some kind, and of all schemas within its parts, holds of all that are
within it. -/
theorem forall_within_of_kind {h : Heap} {p : Value → Prop} {v : Value} {k : Kind}
    (hk : h.kind? v = some k) (here : p v)
    (parts : ∀ part ∈ k.parts, ∀ node, Within h node part → p node) (node : Value)
    (hn : Within h node v) : p node := by
  cases hn with
  | here => exact here
  | inside kind mem within =>
    cases hk.symm.trans kind
    exact parts _ mem node within

/-! ## Induction -/

theorem sizeOf_entry_lt {entries : List (Value × Value)} {e : Value × Value} (h : e ∈ entries) :
    sizeOf e.2 < sizeOf entries := by
  have hlt := List.sizeOf_lt_of_mem h
  obtain ⟨name, part⟩ := e
  rw [Prod.mk.sizeOf_spec] at hlt
  show sizeOf part < sizeOf entries
  omega

theorem sizeOf_part_lt {v : Value} {k : Kind} (hk : v.kind? = some k) {part : Value}
    (hp : part ∈ k.parts) : sizeOf part < sizeOf v := by
  have members (l : List Value) (h : part ∈ l) : sizeOf part < sizeOf l :=
    List.sizeOf_lt_of_mem h
  have entries (l : List (Value × Value)) (h : part ∈ l.map Prod.snd) :
      sizeOf part < sizeOf l := by
    obtain ⟨e, he, rfl⟩ := List.mem_map.mp h
    exact sizeOf_entry_lt he
  cases v with
  | list l | tuple l | union l =>
    cases hk
    have hlt := members l hp
    simp only [Value.list.sizeOf_spec, Value.tuple.sizeOf_spec, Value.union.sizeOf_spec]
    omega
  | mapping l =>
    cases hk
    have hlt := entries l hp
    rw [Value.mapping.sizeOf_spec]
    omega
  | object handle content =>
    rw [Value.object.sizeOf_spec]
    cases content with
    | set l | frozenSet l =>
      cases hk
      have hlt := members l hp
      simp only [Object.set.sizeOf_spec, Object.frozenSet.sizeOf_spec]
      omega
    | proxy l =>
      cases hk
      have hlt := entries l hp
      rw [Object.proxy.sizeOf_spec]
      omega
    | strMember _ _ | host _ | function _ _ _ _ _ | pattern _ =>
      cases hk
      cases hp
    | _ => cases hk
  | str _ | check _ =>
    cases hk
    cases hp
  | _ => cases hk

/-- What holds of a value whenever it holds of its parts, links not followed, holds of all. -/
theorem Value.kind_induction {motive : Value → Prop}
    (step : ∀ v, (∀ k, v.kind? = some k → ∀ part ∈ k.parts, motive part) → motive v)
    (v : Value) : motive v := by
  induction hn : sizeOf v using Nat.strongRecOn generalizing v with
  | ind n ih =>
    refine step v fun k hk part hp => ih (sizeOf part) ?_ part rfl
    rw [← hn]
    exact sizeOf_part_lt hk hp

end Conform
