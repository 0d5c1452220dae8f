import Conform.Proofs.Value.Equality
import Conform.Value.Property
import Mathlib.Data.List.Nodup
/-!
# The names that a value owns

No value equals two keys of one mapping, and the attributes that an object holds have different
names. The slots that are listed for an object are added to these only where they are not among
them yet. So a name is owned twice only by a frame, which may have two columns of one name.
-/

set_option autoImplicit false

namespace Conform

/-! ## Keys -/

/-- Names as the keys of a mapping are: no value equals two of them. -/
structure Keyed (h : Heap) (names : List Value) : Prop where
  onLeft : ∀ v, names.countP (fun name => h.equal name v) ≤ 1
  onRight : ∀ v, names.countP (fun name => h.equal v name) ≤ 1

theorem countP_le_one_of_nodup {α : Type} {p : α → Bool} {l : List α} (hl : l.Nodup)
    (single : ∀ a b, p a = true → p b = true → a = b) : l.countP p ≤ 1 := by
  induction l with
  | nil => simp
  | cons a l ih =>
    obtain ⟨hnew, hl⟩ := List.nodup_cons.mp hl
    rw [List.countP_cons]
    by_cases ha : p a = true
    · have hnone : l.countP p = 0 := by
        rw [List.countP_eq_zero]
        intro b hb hpb
        exact hnew (single a b ha hpb ▸ hb)
      simp [hnone, ha]
    · rw [if_neg ha]
      exact ih hl

/-- Different texts are keys. -/
theorem keyed_texts (h : Heap) {names : List String} (hn : names.Nodup) :
    Keyed h (names.map .str) := by
  refine ⟨fun v => ?_, fun v => ?_⟩
  · rw [List.countP_map]
    refine countP_le_one_of_nodup hn fun name other ha hb => ?_
    exact Option.some.inj ((text?_of_str_equal h ha).symm.trans (text?_of_str_equal h hb))
  · rw [List.countP_map]
    refine countP_le_one_of_nodup hn fun name other ha hb => ?_
    exact Option.some.inj ((text?_of_equal_text h rfl ha).symm.trans (text?_of_equal_text h rfl hb))

/-! ## Attributes and slots -/

theorem nodup_eraseDups (l : List String) : l.eraseDups.Nodup := by
  induction hl : l.length using Nat.strongRecOn generalizing l with
  | ind n ih =>
    cases l with
    | nil => exact List.nodup_nil
    | cons a l =>
      rw [List.eraseDups_cons, List.nodup_cons]
      have hshorter : (l.filter fun b => !b == a).length < n := by
        have hle := List.length_filter_le (fun b => !b == a) l
        rw [List.length_cons] at hl
        omega
      exact ⟨by simp, ih _ hshorter _ rfl⟩

/-- A slot is listed once, however many classes declare it, and not again if it is an attribute. -/
theorem ClassChain.nodup_ownNames {chain : ClassChain} {held : List (String × Value)}
    (hheld : (held.map Prod.fst).Nodup) (present : String → Bool) :
    (chain.ownNames held present).Nodup := by
  unfold ClassChain.ownNames
  refine List.Nodup.append (hheld.filter _) ((nodup_eraseDups _).filter _) ?_
  intro name hopen hslot
  have hnew := (List.mem_filter.mp hslot).2
  rw [List.contains_iff_mem.mpr hopen] at hnew
  cases hnew

/-- The attributes that an object holds, apart from those that all of its kind have. -/
def Object.held : Object → List (String × Value)
  | .function _ _ _ _ own => own
  | .record _ own _ _ => own
  | .slotted _ held => held
  | _ => []

theorem Object.nodup_ownNames {content : Object} (hheld : (content.held.map Prod.fst).Nodup)
    (present : String → Bool) : (content.ownNames present).Nodup := by
  cases content with
  | host f =>
    show f.ownNames.Nodup
    cases f <;> decide
  | function _ _ _ _ own => exact hheld
  | record _ own _ _ => exact hheld
  | slotted chain held => exact ClassChain.nodup_ownNames hheld present
  | _ => simp [Object.ownNames, memberNames]

/-! ## Values -/

/-- A value that keeps entries and attributes under keys. -/
structure WellKeyed (h : Heap) (v : Value) : Prop where
  entries : ∀ entries, h.entries? v = some entries → Keyed h (entries.map Prod.fst)
  attributes : ∀ handle content, v = .object handle content →
    (content.held.map Prod.fst).Nodup

/-- Only a frame owns a name twice. -/
theorem keyed_ownNames {h : Heap} {v : Value} (hv : WellKeyed h v)
    (frameless : ∀ handle columns index, v ≠ .object handle (.frame columns index)) :
    Keyed h (h.ownNames v) := by
  unfold Heap.ownNames
  split
  · next entries hentries => exact hv.entries entries hentries
  · next handle columns index _ => exact absurd rfl (frameless handle columns index)
  · next handle content _ _ =>
    exact keyed_texts h (content.nodup_ownNames (hv.attributes handle content rfl) _)
  · exact keyed_texts h (List.nodup_singleton "_members")
  · exact keyed_texts h List.nodup_nil

end Conform
