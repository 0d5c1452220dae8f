import Conform.Proofs.Schema.Kind
import Mathlib.Data.Finset.Card
import Mathlib.Data.Finset.Range
/-!
# Links inside links

A link in a schema leads to a container that may hold links again. In an acyclic schema, and every
well-formed one is acyclic, no container comes back inside itself, so there are never more links
inside one another than there are containers, but for one that leads nowhere.
-/

set_option autoImplicit false

namespace Conform

/-- A link in a schema, other links not followed. -/
inductive HasLink (address : Nat) : Value → Prop
  | here : HasLink address (.link address)
  | part {v part : Value} {k : Kind} (kind : v.kind? = some k) (mem : part ∈ k.parts)
      (inside : HasLink address part) : HasLink address v

/-- At most so many links inside one another. -/
def Nests (h : Heap) : Nat → Value → Prop
  | 0, v => ∀ a, ¬ HasLink a v
  | n + 1, v => ∀ a, HasLink a v → Nests h n (h.cell a)

variable {h : Heap}

/-! ## Schemas that do not contain themselves -/

def Heap.PartOf (h : Heap) (part whole : Value) : Prop :=
  ∃ k, h.kind? whole = some k ∧ part ∈ k.parts

/-- No chain of parts of parts, links followed, goes on for ever. -/
def Heap.Acyclic (h : Heap) (schema : Value) : Prop := Acc h.PartOf schema

theorem Heap.Acyclic.part {schema part : Value} {k : Kind} (ha : h.Acyclic schema)
    (hk : h.kind? schema = some k) (hp : part ∈ k.parts) : h.Acyclic part :=
  ha.inv ⟨k, hk, hp⟩

theorem WellFormed.acyclic {schema : Value} (hw : WellFormed h schema) : h.Acyclic schema := by
  induction hw with
  | @intro schema k kind parts ih =>
    refine .intro schema fun part ⟨k', kind', mem⟩ => ?_
    cases kind.symm.trans kind'
    exact ih part mem

/-! ## At most so many links -/

namespace Nests

theorem cell {n a : Nat} (hn : Nests h n (.link a)) : ∃ m, n = m + 1 ∧ Nests h m (h.cell a) := by
  cases n with
  | zero => exact absurd .here (hn a)
  | succ m => exact ⟨m, rfl, hn a .here⟩

theorem part {n : Nat} {v part : Value} {k : Kind} (hn : Nests h n v) (hk : v.kind? = some k)
    (hp : part ∈ k.parts) : Nests h n part := by
  cases n with
  | zero => exact fun a ha => hn a (.part hk hp ha)
  | succ m => exact fun a ha => hn a (.part hk hp ha)

theorem of_no_link {v : Value} (hv : ∀ a, ¬ HasLink a v) (n : Nat) : Nests h n v := by
  cases n with
  | zero => exact hv
  | succ m => exact fun a ha => absurd ha (hv a)

end Nests

/-! ## Containers that lead to one another -/

/-- The container at `b` links to the one at `a`. -/
def Heap.Below (h : Heap) (a b : Nat) : Prop := HasLink a (h.cell b)

/-- What a container links to, one of its parts links to. -/
theorem Heap.Below.part {a b : Nat} (hab : h.Below a b) :
    ∃ k, h.kind? (.link b) = some k ∧ ∃ part ∈ k.parts, HasLink a part := by
  have hkind : h.kind? (.link b) = (h.cell b).kind? := rfl
  unfold Heap.Below at hab
  generalize hcell : h.cell b = v at hab hkind
  cases hab with
  | here => exact absurd hcell (cell_ne_link h b a)
  | part kind mem inside => exact ⟨_, hkind.trans kind, _, mem, inside⟩

/-- A container of an acyclic schema does not link to itself, however many links are followed. -/
theorem acc_below_of_acyclic {v : Value} (hv : h.Acyclic v) {a : Nat} (ha : HasLink a v) :
    Acc h.Below a := by
  induction hv generalizing a with
  | intro v _ ih =>
    cases ha with
    | here =>
      refine .intro a fun b hb => ?_
      obtain ⟨k, kind, part, mem, inside⟩ := hb.part
      exact ih part ⟨k, kind, mem⟩ inside
    | @part _ part k kind mem inside => exact ih part ⟨k, kind?_of_kind h kind, mem⟩ inside

theorem not_rel_self_of_acc {α : Type} {r : α → α → Prop} {a : α} (ha : Acc r a) : ¬ r a a := by
  induction ha with
  | intro x _ ih => exact fun hr => ih x hr hr

theorem no_link_beyond {a : Nat} (ha : h.size ≤ a) (b : Nat) : ¬ HasLink b (h.cell a) := by
  have hcell : h.cell a = .list [] := by
    rw [Heap.cell, Array.getElem?_eq_none ha]
  rw [hcell]
  intro hb
  cases hb with
  | part kind mem inside =>
    cases kind
    cases mem

/-- Containers through which a chain of links has come to `a` do not come again, so what is left
of all containers bounds what can follow. -/
theorem nests_cell_of_acc {a : Nat} (ha : Acc h.Below a) (passed : Finset Nat)
    (hpassed : ∀ b ∈ passed, b < h.size ∧ Relation.TransGen h.Below a b) (n : Nat)
    (hn : h.size ≤ n + passed.card) : Nests h n (h.cell a) := by
  induction ha generalizing passed n with
  | intro a below ih =>
    rcases Nat.lt_or_ge a h.size with hlt | hge
    · have hfresh : a ∉ passed := by
        intro hmem
        have hacc : Acc (Relation.TransGen h.Below) a := (Acc.intro a below).transGen
        exact not_rel_self_of_acc hacc (hpassed a hmem).2
      have hcard : (insert a passed).card ≤ h.size := by
        have hsubset : insert a passed ⊆ Finset.range h.size := by
          intro b hb
          rcases Finset.mem_insert.mp hb with rfl | hb
          · exact Finset.mem_range.mpr hlt
          · exact Finset.mem_range.mpr (hpassed b hb).1
        rw [← Finset.card_range h.size]
        exact Finset.card_le_card hsubset
      rw [Finset.card_insert_of_notMem hfresh] at hcard
      obtain ⟨m, rfl⟩ : ∃ m, n = m + 1 := ⟨n - 1, by omega⟩
      intro b hb
      refine ih b hb (insert a passed) (fun c hc => ?_) m ?_
      · rcases Finset.mem_insert.mp hc with rfl | hc
        · exact ⟨hlt, .single hb⟩
        · exact ⟨(hpassed c hc).1, .head hb (hpassed c hc).2⟩
      · rw [Finset.card_insert_of_notMem hfresh]
        omega
    · exact .of_no_link (no_link_beyond hge) n

theorem nests_of_acyclic {v : Value} (hv : h.Acyclic v) {n : Nat} (hn : h.size + 1 ≤ n) :
    Nests h n v := by
  obtain ⟨m, rfl⟩ : ∃ m, n = m + 1 := ⟨n - 1, by omega⟩
  intro a ha
  have hacc := acc_below_of_acyclic hv ha
  refine nests_cell_of_acc hacc ∅ (fun b hb => absurd hb (Finset.notMem_empty b)) m ?_
  rw [Finset.card_empty]
  omega

theorem nests_of_wellFormed {v : Value} (hv : WellFormed h v) {n : Nat} (hn : h.size + 1 ≤ n) :
    Nests h n v :=
  nests_of_acyclic hv.acyclic hn

/-! ## Containers that are open -/

theorem acyclic_of_parts {v : Value}
    (parts : ∀ k, h.kind? v = some k → ∀ part ∈ k.parts, h.Acyclic part) : h.Acyclic v :=
  .intro v fun part ⟨k, hk, hp⟩ => parts k hk part hp

theorem Heap.Acyclic.cell {a : Nat} (ha : h.Acyclic (.link a)) : h.Acyclic (h.cell a) :=
  acyclic_of_parts fun _ hk _ hp => ha.part ((kind?_link h a).trans hk) hp

/-- A value inside the containers `opened`, to none of which its links lead, with at most so many
links inside one another. -/
structure Heap.Inside (h : Heap) (links : Nat) (opened : List Nat) (v : Value) : Prop where
  acyclic : h.Acyclic v
  nests : Nests h links v
  fresh : ∀ a, HasLink a v → ∀ b ∈ opened, ¬ Relation.ReflTransGen h.Below b a

namespace Heap.Inside

theorem start {v : Value} (hv : h.Acyclic v) : h.Inside (h.size + 1) [] v :=
  ⟨hv, nests_of_acyclic hv (Nat.le_refl _), nofun⟩

theorem part {links : Nat} {opened : List Nat} {v part : Value} {k : Kind}
    (hv : h.Inside links opened v) (hk : v.kind? = some k) (hp : part ∈ k.parts) :
    h.Inside links opened part :=
  ⟨hv.acyclic.part (kind?_of_kind h hk) hp, hv.nests.part hk hp,
    fun a ha => hv.fresh a (.part hk hp ha)⟩

/-- A link leads to a container that is not open yet, and opens it. -/
theorem cell {links a : Nat} {opened : List Nat} (hv : h.Inside links opened (.link a)) :
    opened.contains a = false ∧ ∃ m, links = m + 1 ∧ h.Inside m (a :: opened) (h.cell a) := by
  have hnew : a ∉ opened := fun hmem => hv.fresh a .here a hmem .refl
  obtain ⟨m, hm, hnests⟩ := hv.nests.cell
  refine ⟨by simpa using hnew, m, hm, hv.acyclic.cell, hnests, fun c hc b hb hreach => ?_⟩
  rcases List.mem_cons.mp hb with rfl | hb
  · have hacc : Acc (Relation.TransGen h.Below) b :=
      (acc_below_of_acyclic hv.acyclic .here).transGen
    exact not_rel_self_of_acc hacc (.tail' hreach hc)
  · exact hv.fresh a .here b hb (hreach.tail hc)

end Heap.Inside

end Conform
