import Conform.Proofs.Schema.Kind
import Conform.Proofs.Sequences
import Conform.Value.Order
import Mathlib.Data.List.Pairwise
import Mathlib.Data.List.Perm.Basic
/-!
# The order of values

Values other than tuples compare just if they are of one family: numbers on the real line, texts,
byte strings or sets. Sorting rearranges a list, or fails for two values of different families. A
list in which all compare is sorted, and one that has no tuples is sorted only then: the members of
a family compare with no others, so it does not matter which pairs are tried. Of tuples this is not
true: which elements decide depends on the pair.
-/

set_option autoImplicit false

namespace Conform

/-! ## Families -/

inductive Family where
  | number
  | text
  | bytes
  | set
  deriving DecidableEq

def Object.family? : Object → Option Family
  | .machine _ => some .number
  | .fraction _ _ => some .number
  | .decimal _ => some .number
  | .intMember _ _ => some .number
  | .strMember _ _ => some .text
  | .bytes _ => some .bytes
  | .set _ => some .set
  | .frozenSet _ => some .set
  | _ => none

/-- The family in which a value compares; what is none of these compares with nothing. -/
def Value.family? : Value → Option Family
  | .bool _ => some .number
  | .int _ => some .number
  | .float _ => some .number
  | .str _ => some .text
  | .object _ content => content.family?
  | _ => none

def SameFamily (v w : Value) : Prop := ∃ family, v.family? = some family ∧ w.family? = some family

theorem SameFamily.symm {v w : Value} (h : SameFamily v w) : SameFamily w v :=
  let ⟨family, hv, hw⟩ := h
  ⟨family, hw, hv⟩

theorem SameFamily.trans {u v w : Value} (h : SameFamily u v) (h' : SameFamily v w) :
    SameFamily u w := by
  obtain ⟨family, hu, hv⟩ := h
  obtain ⟨other, hv', hw⟩ := h'
  cases hv.symm.trans hv'
  exact ⟨family, hu, hw⟩

instance (v w : Value) : Decidable (SameFamily v w) :=
  decidable_of_iff (v.family?.isSome = true ∧ v.family? = w.family?) (by
    constructor
    · rintro ⟨hsome, heq⟩
      obtain ⟨family, hv⟩ := Option.isSome_iff_exists.mp hsome
      exact ⟨family, hv, heq ▸ hv⟩
    · rintro ⟨family, hv, hw⟩
      exact ⟨by rw [hv]; rfl, hv.trans hw.symm⟩)

theorem rank?_isSome (v : Value) : v.rank?.isSome = decide (v.family? = some .number) := by
  cases v with
  | object handle content =>
    cases content with
    | machine x => cases x <;> rfl
    | decimal d =>
      show (if _ then _ else _ : Option Exact).isSome = true
      split <;> rfl
    | _ => rfl
  | _ => rfl

theorem text?_isSome (v : Value) : v.text?.isSome = decide (v.family? = some .text) := by
  cases v with
  | object handle content => cases content <;> rfl
  | _ => rfl

theorem setMembers?_isSome (v : Value) :
    v.setMembers?.isSome = decide (v.family? = some .set) := by
  cases v with
  | object handle content => cases content <;> rfl
  | _ => rfl

theorem family?_bytes_iff {v : Value} :
    v.family? = some .bytes ↔ ∃ handle data, v = .object handle (.bytes data) := by
  constructor
  · intro hv
    cases v with
    | object handle content =>
      cases content with
      | bytes data => exact ⟨handle, data, rfl⟩
      | _ => cases hv
    | _ => cases hv
  · rintro ⟨handle, data, rfl⟩
    rfl

/-! ## Comparing -/

section

variable {h : Heap}

theorem resolve_eq_bytes {v : Value} {handle : Option Nat} {data : List UInt8}
    (hv : h.resolve v = .object handle (.bytes data)) : v.family? = some .bytes := by
  by_cases hlink : ∃ a, v = .link a
  · obtain ⟨a, rfl⟩ := hlink
    rcases cell_cases h a with ⟨items, hcell⟩ | ⟨entries, hcell⟩
    all_goals
      rw [Heap.resolve, hcell] at hv
      cases hv
  · rw [resolve_of_ne_link h fun a ha => hlink ⟨a, ha⟩] at hv
    exact family?_bytes_iff.mpr ⟨handle, data, hv⟩

theorem exists_atomLess_iff {v w : Value} :
    (∃ less, atomLess h v w = .ok less) ↔ SameFamily v w := by
  constructor
  · rintro ⟨less, hless⟩
    unfold atomLess at hless
    split at hless
    case h_1 a b hv hw =>
      exact ⟨.number, by simpa [hv] using rank?_isSome v, by simpa [hw] using rank?_isSome w⟩
    split at hless
    case h_1 s t hv hw =>
      exact ⟨.text, by simpa [hv] using text?_isSome v, by simpa [hw] using text?_isSome w⟩
    split at hless
    case h_1 hv hw => exact ⟨.bytes, resolve_eq_bytes hv, resolve_eq_bytes hw⟩
    split at hless
    case h_1 xs ys hv hw =>
      exact ⟨.set, by simpa [hv] using setMembers?_isSome v, by simpa [hw] using setMembers?_isSome w⟩
    cases hless
  · rintro ⟨family, hv, hw⟩
    cases family with
    | number =>
      obtain ⟨a, ha⟩ := Option.isSome_iff_exists.mp ((rank?_isSome v).trans (decide_eq_true hv))
      obtain ⟨b, hb⟩ := Option.isSome_iff_exists.mp ((rank?_isSome w).trans (decide_eq_true hw))
      rw [atomLess, ha, hb]
      exact ⟨_, rfl⟩
    | text =>
      obtain ⟨s, hs⟩ := Option.isSome_iff_exists.mp ((text?_isSome v).trans (decide_eq_true hv))
      obtain ⟨t, ht⟩ := Option.isSome_iff_exists.mp ((text?_isSome w).trans (decide_eq_true hw))
      unfold atomLess
      split
      · exact ⟨_, rfl⟩
      rw [hs, ht]
      exact ⟨_, rfl⟩
    | bytes =>
      obtain ⟨i, a, rfl⟩ := family?_bytes_iff.mp hv
      obtain ⟨j, b, rfl⟩ := family?_bytes_iff.mp hw
      exact ⟨_, rfl⟩
    | set =>
      obtain ⟨xs, hxs⟩ :=
        Option.isSome_iff_exists.mp ((setMembers?_isSome v).trans (decide_eq_true hv))
      obtain ⟨ys, hys⟩ :=
        Option.isSome_iff_exists.mp ((setMembers?_isSome w).trans (decide_eq_true hw))
      unfold atomLess
      split
      · exact ⟨_, rfl⟩
      split
      · exact ⟨_, rfl⟩
      split
      · exact ⟨_, rfl⟩
      rw [hxs, hys]
      exact ⟨_, rfl⟩

/-- Complaints about two values that are not of one family. -/
def Unordered (failure : Failure) : Prop :=
  ∃ left right, failure = .unordered left right ∧ ¬ SameFamily left right

theorem unordered_of_atomLess {v w : Value} {failure : Failure}
    (hfails : atomLess h v w = .error failure) : Unordered failure := by
  have apart : ¬ SameFamily v w := by
    intro hvw
    obtain ⟨less, hless⟩ := exists_atomLess_iff.mpr hvw
    cases hless.symm.trans hfails
  unfold atomLess at hfails
  split at hfails
  · cases hfails
  split at hfails
  · cases hfails
  split at hfails
  · cases hfails
  split at hfails
  · cases hfails
  · cases hfails
    exact ⟨v, w, rfl, apart⟩

theorem unordered_of_less {v w : Value} {failure : Failure}
    (hfails : h.less v w = .error failure) : Unordered failure := by
  refine Heap.less.induct h (fun v w => h.less v w = .error failure → Unordered failure)
    (fun xs ys => tupleLess h xs ys = .error failure → Unordered failure)
    ?tuples ?atoms ?ended ?shorter ?equal ?differ v w hfails
  case tuples =>
    intro xs ys ih hfails
    rw [Heap.less] at hfails
    exact ih hfails
  case atoms =>
    intro v w hne hfails
    rw [Heap.less] at hfails
    · exact unordered_of_atomLess hfails
    · exact hne
  case ended =>
    intro xs hfails
    rw [tupleLess] at hfails
    cases hfails
  case shorter =>
    intro y ys hfails
    rw [tupleLess] at hfails
    cases hfails
  case equal =>
    intro x xs y ys heq ih hfails
    rw [tupleLess, if_pos heq] at hfails
    exact ih hfails
  case differ =>
    intro x xs y ys hne ih hfails
    rw [tupleLess, if_neg hne] at hfails
    exact ih hfails

def Value.IsTuple (v : Value) : Prop := ∃ items, v = .tuple items

theorem less_eq_atomLess {v w : Value} (hv : ¬ v.IsTuple) : h.less v w = atomLess h v w := by
  rw [Heap.less]
  rintro xs ys rfl
  exact absurd ⟨xs, rfl⟩ hv

end

/-- It can be told of each of two values whether it is less than the other. -/
structure Heap.Comparable (h : Heap) (v w : Value) : Prop where
  forth : ∃ less, h.less v w = .ok less
  back : ∃ less, h.less w v = .ok less

section

variable {h : Heap}

theorem Heap.Comparable.symm {v w : Value} (hvw : h.Comparable v w) : h.Comparable w v :=
  ⟨hvw.back, hvw.forth⟩

theorem comparable_iff {v w : Value} (hv : ¬ v.IsTuple) (hw : ¬ w.IsTuple) :
    h.Comparable v w ↔ SameFamily v w := by
  constructor
  · intro hvw
    obtain ⟨less, hless⟩ := hvw.forth
    exact exists_atomLess_iff.mp ⟨less, less_eq_atomLess hv ▸ hless⟩
  · intro hvw
    constructor
    · rw [less_eq_atomLess hv]
      exact exists_atomLess_iff.mpr hvw
    · rw [less_eq_atomLess hw]
      exact exists_atomLess_iff.mpr hvw.symm

/-! ## Sorting -/

theorem perm_of_insertDown {v : Value} {l l' : List Value} (hrun : h.insertDown v l = .ok l') :
    l'.Perm (v :: l) := by
  induction l generalizing l' with
  | nil =>
    cases hrun
    exact .refl _
  | cons w rest ih =>
    obtain ⟨less, -, hrun⟩ := exists_of_bind_eq_ok hrun
    cases less with
    | false =>
      cases hrun
      exact .refl _
    | true =>
      obtain ⟨inserted, hrest, hrun⟩ := exists_of_bind_eq_ok hrun
      cases hrun
      exact ((ih hrest).cons w).trans (.swap v w rest)

theorem perm_of_sortDown {done l l' : List Value} (hrun : h.sortDown done l = .ok l') :
    l'.Perm (done ++ l) := by
  induction l generalizing done with
  | nil =>
    cases hrun
    rw [List.append_nil]
  | cons v rest ih =>
    obtain ⟨inserted, hinsert, hrun⟩ := exists_of_bind_eq_ok hrun
    have hmoved : (inserted ++ rest).Perm (v :: done ++ rest) :=
      (perm_of_insertDown hinsert).append_right rest
    exact (ih hrun).trans (hmoved.trans List.perm_middle.symm)

theorem perm_of_sorted {l l' : List Value} (hrun : h.sorted l = .ok l') : l'.Perm l := by
  obtain ⟨down, hdown, rfl⟩ := exists_of_map_eq_ok hrun
  exact (List.reverse_perm down).trans (perm_of_sortDown hdown)

/-! ### Failures -/

theorem unordered_of_insertDown {v : Value} {l : List Value} {failure : Failure}
    (hfails : h.insertDown v l = .error failure) : Unordered failure := by
  induction l with
  | nil => cases hfails
  | cons w rest ih =>
    rcases error_or_of_bind_eq_error hfails with hless | ⟨less, -, hfails⟩
    · exact unordered_of_less hless
    cases less with
    | false => cases hfails
    | true =>
      rcases error_or_of_bind_eq_error hfails with hrest | ⟨inserted, -, hfails⟩
      · exact ih hrest
      · cases hfails

theorem unordered_of_sortDown {done l : List Value} {failure : Failure}
    (hfails : h.sortDown done l = .error failure) : Unordered failure := by
  induction l generalizing done with
  | nil => cases hfails
  | cons v rest ih =>
    rcases error_or_of_bind_eq_error hfails with hinsert | ⟨inserted, -, hfails⟩
    · exact unordered_of_insertDown hinsert
    · exact ih hfails

theorem unordered_of_sorted {l : List Value} {failure : Failure}
    (hfails : h.sorted l = .error failure) : Unordered failure := by
  cases hdown : h.sortDown [] l with
  | error e =>
    rw [Heap.sorted, hdown] at hfails
    cases hfails
    exact unordered_of_sortDown hdown
  | ok down =>
    rw [Heap.sorted, hdown] at hfails
    cases hfails

/-! ### Lists that are sorted -/

/-- A value that compares with all values of a list is put into it. -/
theorem exists_insertDown {v : Value} {l : List Value}
    (hv : ∀ w ∈ l, ∃ less, h.less v w = .ok less) : ∃ l', h.insertDown v l = .ok l' := by
  induction l with
  | nil => exact ⟨[v], rfl⟩
  | cons w rest ih =>
    obtain ⟨less, hless⟩ := hv w List.mem_cons_self
    obtain ⟨inserted, hrest⟩ := ih fun u hu => hv u (List.mem_cons_of_mem w hu)
    rw [Heap.insertDown, hless]
    cases less with
    | false => exact ⟨_, rfl⟩
    | true =>
      rw [ok_bind, hrest]
      exact ⟨_, rfl⟩

theorem exists_sortDown {done l : List Value} (hall : (done ++ l).Pairwise h.Comparable) :
    ∃ l', h.sortDown done l = .ok l' := by
  induction l generalizing done with
  | nil => exact ⟨done, rfl⟩
  | cons v rest ih =>
    have hall : (v :: done ++ rest).Pairwise h.Comparable :=
      (List.perm_middle.pairwise_iff Heap.Comparable.symm).mp hall
    obtain ⟨inserted, hinsert⟩ := exists_insertDown fun w hw =>
      (List.rel_of_pairwise_cons hall (List.mem_append_left rest hw)).forth
    have hmoved : (inserted ++ rest).Perm (v :: done ++ rest) :=
      (perm_of_insertDown hinsert).append_right rest
    rw [Heap.sortDown, hinsert]
    exact ih ((hmoved.pairwise_iff Heap.Comparable.symm).mpr hall)

theorem exists_sorted {l : List Value} (hall : l.Pairwise h.Comparable) :
    ∃ l', h.sorted l = .ok l' := by
  obtain ⟨down, hdown⟩ : ∃ down, h.sortDown [] l = .ok down := exists_sortDown hall
  rw [Heap.sorted, hdown]
  exact ⟨_, rfl⟩

/-- The first comparison decides whether a value is of the family of those that are there. -/
theorem sameFamily_of_insertDown {v : Value} {l l' : List Value} (hv : ¬ v.IsTuple)
    (hrun : h.insertDown v l = .ok l') (hl : l.Pairwise SameFamily) :
    (v :: l).Pairwise SameFamily := by
  cases l with
  | nil => exact List.pairwise_singleton _ _
  | cons w rest =>
    obtain ⟨less, hless, -⟩ := exists_of_bind_eq_ok hrun
    have hvw : SameFamily v w := exists_atomLess_iff.mp ⟨less, less_eq_atomLess hv ▸ hless⟩
    refine List.pairwise_cons.mpr ⟨fun u hu => ?_, hl⟩
    rcases List.mem_cons.mp hu with rfl | hu
    · exact hvw
    · exact hvw.trans (List.rel_of_pairwise_cons hl hu)

theorem sameFamily_of_sortDown {done l l' : List Value} (tupleless : ∀ v ∈ l, ¬ v.IsTuple)
    (hrun : h.sortDown done l = .ok l') (hdone : done.Pairwise SameFamily) :
    (done ++ l).Pairwise SameFamily := by
  induction l generalizing done with
  | nil => rwa [List.append_nil]
  | cons v rest ih =>
    obtain ⟨hv, hrest⟩ := List.forall_mem_cons.mp tupleless
    obtain ⟨inserted, hinsert, hrun⟩ := exists_of_bind_eq_ok hrun
    have hinserted : inserted.Pairwise SameFamily :=
      ((perm_of_insertDown hinsert).pairwise_iff SameFamily.symm).mpr
        (sameFamily_of_insertDown hv hinsert hdone)
    have hmoved : (inserted ++ rest).Perm (done ++ v :: rest) :=
      ((perm_of_insertDown hinsert).append_right rest).trans List.perm_middle.symm
    exact (hmoved.pairwise_iff SameFamily.symm).mp (ih hrest hrun hinserted)

/-- Values that are not tuples are sorted just if they are of one family. -/
theorem exists_sorted_iff {l : List Value} (tupleless : ∀ v ∈ l, ¬ v.IsTuple) :
    (∃ l', h.sorted l = .ok l') ↔ l.Pairwise SameFamily := by
  constructor
  · rintro ⟨l', hrun⟩
    obtain ⟨down, hdown, -⟩ := exists_of_map_eq_ok hrun
    exact sameFamily_of_sortDown tupleless hdown .nil
  · intro hl
    refine exists_sorted (hl.imp_of_mem fun hv hw hvw => ?_)
    exact (comparable_iff (tupleless _ hv) (tupleless _ hw)).mpr hvw

example : [Value.bool true, .int 2, .object none (.fraction 1 2)].Pairwise SameFamily := by decide

example : ¬ [Value.int 2, .str "strict"].Pairwise SameFamily := by decide

end

end Conform
