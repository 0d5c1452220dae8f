import Conform.Proofs.Schema.Kind
import Conform.Proofs.Sequences
import Mathlib.Logic.Relation
/-!
# Schemas that differ in some of their parts

Two schemas are congruent under a change when the one comes from the other by making the change at
any number of places, at any depth. What holds of a schema and a changed one, and of containers
when it holds of their parts one by one, holds of all schemas that are congruent under the change.
-/

set_option autoImplicit false

namespace Conform

/-! ## Containers in step -/

namespace Kind

/-- Containers of one kind with as many parts as each other, and objects with the same names. -/
def SameShape : Kind → Kind → Prop
  | .array members, .array members' => members.length = members'.length
  | .union members, .union members' => members.length = members'.length
  | .object entries, .object entries' => entries.map Prod.fst = entries'.map Prod.fst
  | _, _ => False

/-- Entries under one name with schemas in a relation. -/
def SameName (r : Value → Value → Prop) (e e' : Value × Value) : Prop := e.1 = e'.1 ∧ r e.2 e'.2

/-- Containers of one shape whose parts are in a relation, one by one. -/
inductive Related (r : Value → Value → Prop) : Kind → Kind → Prop
  | array {members members' : List Value} (each : List.Forall₂ r members members') :
      Related r (.array members) (.array members')
  | union {members members' : List Value} (each : List.Forall₂ r members members') :
      Related r (.union members) (.union members')
  | object {entries entries' : List (Value × Value)}
      (each : List.Forall₂ (SameName r) entries entries') :
      Related r (.object entries) (.object entries')

theorem related_of_sameShape {r : Value → Value → Prop} {k k' : Kind} (shape : k.SameShape k')
    (each : ∀ (i : Nat) (part part' : Value), k.parts[i]? = some part →
      k'.parts[i]? = some part' → r part part') : k.Related r k' := by
  cases k with
  | array members =>
    cases k' with
    | array members' => exact .array (forall₂_of_getElem? shape each)
    | _ => cases shape
  | union members =>
    cases k' with
    | union members' => exact .union (forall₂_of_getElem? shape each)
    | _ => cases shape
  | object entries =>
    cases k' with
    | object entries' =>
      have hnames : entries.map Prod.fst = entries'.map Prod.fst := shape
      have hlength : entries.length = entries'.length := by
        rw [← List.length_map (f := Prod.fst), hnames, List.length_map]
      refine .object (forall₂_of_getElem? hlength fun i e e' he he' => ⟨?_, ?_⟩)
      · have hname : (entries.map Prod.fst)[i]? = some e.1 := by rw [List.getElem?_map, he]; rfl
        rw [hnames, List.getElem?_map, he'] at hname
        exact (Option.some.inj hname).symm
      · refine each i e.2 e'.2 ?_ ?_
        · rw [parts, List.getElem?_map, he]
          rfl
        · rw [parts, List.getElem?_map, he']
          rfl
    | _ => cases shape
  | _ => cases shape

theorem Related.sameShape {r : Value → Value → Prop} {k k' : Kind} (h : k.Related r k') :
    k.SameShape k' := by
  cases h with
  | array each => exact each.length_eq
  | union each => exact each.length_eq
  | object each =>
    show List.map _ _ = List.map _ _
    induction each with
    | nil => rfl
    | cons he _ ih => rw [List.map_cons, List.map_cons, he.1, ih]

theorem Related.parts {r : Value → Value → Prop} {k k' : Kind} (h : k.Related r k') :
    List.Forall₂ r k.parts k'.parts := by
  cases h with
  | array each => exact each
  | union each => exact each
  | object each =>
    rw [Kind.parts, Kind.parts, List.forall₂_map_left_iff, List.forall₂_map_right_iff]
    exact each.imp fun _ _ he => he.2

theorem Related.imp {r q : Value → Value → Prop} {k k' : Kind} (h : k.Related r k')
    (hrq : ∀ v v', r v v' → q v v') : k.Related q k' := by
  cases h with
  | array each => exact .array (each.imp hrq)
  | union each => exact .union (each.imp hrq)
  | object each => exact .object (each.imp fun _ _ he => ⟨he.1, hrq _ _ he.2⟩)

theorem Related.symm {r : Value → Value → Prop} {k k' : Kind} (h : k.Related r k') :
    k'.Related (fun v v' => r v' v) k := by
  cases h with
  | array each => exact .array each.flip
  | union each => exact .union each.flip
  | object each => exact .object (each.flip.imp fun _ _ he => ⟨he.1.symm, he.2⟩)

/-- Relations that grow with a bound and hold of each pair of parts from some bound on hold of all
from one bound on. -/
theorem Related.exists_bound {r : Nat → Value → Value → Prop}
    (mono : ∀ n m part part', n ≤ m → r n part part' → r m part part') {k k' : Kind}
    (h : k.Related (fun part part' => ∃ n, r n part part') k') : ∃ n, k.Related (r n) k' := by
  cases h with
  | array each => exact (exists_bound_of_forall₂ mono each).imp fun n hn => .array hn
  | union each => exact (exists_bound_of_forall₂ mono each).imp fun n hn => .union hn
  | object each =>
    have hbound : ∃ n, List.Forall₂ (SameName (r n)) _ _ :=
      exists_bound_of_forall₂ (fun n m e e' hnm he => ⟨he.1, mono n m _ _ hnm he.2⟩)
        (each.imp fun e e' he => he.2.imp fun n hn => ⟨he.1, hn⟩)
    exact hbound.imp fun n hn => .object hn

end Kind

/-! ## Changes at any place -/

/-- A schema and one in which places, at any depth, are changed. -/
inductive Congruent (h : Heap) (change : Value → Value → Prop) : Value → Value → Prop
  | same (v : Value) : Congruent h change v v
  | changed {v v' : Value} (here : change v v') : Congruent h change v v'
  | inside {v v' : Value} {k k' : Kind} (kind : h.kind? v = some k) (kind' : h.kind? v' = some k')
      (shape : k.SameShape k')
      (each : ∀ (i : Nat) (part part' : Value), k.parts[i]? = some part →
        k'.parts[i]? = some part' → Congruent h change part part') : Congruent h change v v'

theorem Congruent.ofRelated {h : Heap} {change : Value → Value → Prop} {v v' : Value} {k k' : Kind}
    (kind : h.kind? v = some k) (kind' : h.kind? v' = some k')
    (related : k.Related (Congruent h change) k') : Congruent h change v v' := by
  refine .inside kind kind' related.sameShape fun i part part' hpart hpart' => ?_
  obtain ⟨other, hother, hr⟩ := exists_getElem?_of_forall₂ related.parts hpart
  cases hother.symm.trans hpart'
  exact hr

/-- A relation that includes a change, and containers when their parts are in it, includes all
that is congruent under the change. -/
theorem Congruent.le {h : Heap} {change r : Value → Value → Prop} (hsame : ∀ v, r v v)
    (hchange : ∀ v v', change v v' → r v v')
    (hinside : ∀ (v v' : Value) (k k' : Kind), h.kind? v = some k → h.kind? v' = some k' →
      k.Related r k' → r v v') {v v' : Value} (hc : Congruent h change v v') : r v v' := by
  induction hc with
  | same v => exact hsame v
  | changed here => exact hchange _ _ here
  | inside kind kind' shape _ ih =>
    exact hinside _ _ _ _ kind kind' (Kind.related_of_sameShape shape ih)

end Conform
