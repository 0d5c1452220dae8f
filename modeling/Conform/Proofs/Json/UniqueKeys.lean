import Conform.Json.Reading
import Conform.Proofs.Sequences
/-!
# JSON objects as dictionaries

An object that is made member by member has every name once, and its members keep their order. So
does all that is read from a text. Main statement: `uniqueKeys_of_read`.
-/

set_option autoImplicit false

namespace Conform.Json

/-- JSON the objects of which have no name twice, with atoms of some sort. -/
inductive UniqueKeys (sort : Json → Bool) : Json → Prop
  | atom {j : Json} (of_sort : sort j = true) : UniqueKeys sort j
  | array {items : List Json} (each : ∀ item ∈ items, UniqueKeys sort item) :
      UniqueKeys sort (.array items)
  | object {members : List (String × Json)} (names : (members.map Prod.fst).Nodup)
      (each : ∀ m ∈ members, UniqueKeys sort m.2) : UniqueKeys sort (.object members)

def isAtom : Json → Bool
  | .array _ => false
  | .object _ => false
  | _ => true

/-! ## Members -/

section

variable {key : String} {value : Json} {members : List (String × Json)}

theorem setMember_of_not_mem (h : key ∉ members.map Prod.fst) :
    setMember key value members = members ++ [(key, value)] := by
  induction members with
  | nil => rfl
  | cons m members ih =>
    have hne : m.1 ≠ key := fun heq => h (List.mem_cons.mpr (.inl heq.symm))
    have hrest : key ∉ members.map Prod.fst := fun hmem => h (List.mem_cons_of_mem _ hmem)
    rw [setMember, if_neg (by simpa using hne), ih hrest]
    rfl

theorem names_setMember_of_mem (h : key ∈ members.map Prod.fst) :
    (setMember key value members).map Prod.fst = members.map Prod.fst := by
  induction members with
  | nil => cases h
  | cons m members ih =>
    rw [setMember]
    split
    · rfl
    · next hne =>
      have hrest : key ∈ members.map Prod.fst := by
        rcases List.mem_cons.mp h with heq | hmem
        · exact absurd heq.symm (by simpa using hne)
        · exact hmem
      rw [List.map_cons, List.map_cons, ih hrest]

theorem nodup_setMember (h : (members.map Prod.fst).Nodup) :
    ((setMember key value members).map Prod.fst).Nodup := by
  by_cases hmem : key ∈ members.map Prod.fst
  · rw [names_setMember_of_mem hmem]
    exact h
  · rw [setMember_of_not_mem hmem, List.map_append, List.map_singleton]
    refine List.nodup_append.mpr ⟨h, by simp, ?_⟩
    intro a ha b hb hab
    rw [List.mem_singleton] at hb
    rw [hab, hb] at ha
    exact hmem ha

theorem mem_of_mem_setMember {m : String × Json} (h : m ∈ setMember key value members) :
    m.2 = value ∨ m ∈ members := by
  induction members with
  | nil =>
    cases List.mem_singleton.mp h
    exact .inl rfl
  | cons first members ih =>
    rw [setMember] at h
    split at h
    · rcases List.mem_cons.mp h with rfl | hmem
      · exact .inl rfl
      · exact .inr (List.mem_cons_of_mem _ hmem)
    · rcases List.mem_cons.mp h with rfl | hmem
      · exact .inr (List.mem_cons_self ..)
      · exact (ih hmem).imp_right (List.mem_cons_of_mem _)

end

theorem ofMembers_of_nodup {members : List (String × Json)}
    (names : (members.map Prod.fst).Nodup) : ofMembers members = .object members := by
  have hfold (back front : List (String × Json)) (names : ((front ++ back).map Prod.fst).Nodup) :
      back.foldl (fun made m => setMember m.1 m.2 made) front = front ++ back := by
    induction back generalizing front with
    | nil => exact (List.append_nil front).symm
    | cons m back ih =>
      have hnew : m.1 ∉ front.map Prod.fst := by
        rw [List.map_append, List.nodup_append] at names
        exact fun hmem => names.2.2 m.1 hmem m.1 (List.mem_cons_self ..) rfl
      have hassoc : front ++ m :: back = front ++ [m] ++ back := by
        rw [List.append_assoc, List.singleton_append]
      rw [hassoc] at names ⊢
      rw [List.foldl_cons, setMember_of_not_mem hnew]
      exact ih (front ++ [m]) names
  exact congrArg Json.object (hfold members [] names)

theorem uniqueKeys_ofMembers {sort : Json → Bool} {members : List (String × Json)}
    (each : ∀ m ∈ members, UniqueKeys sort m.2) : UniqueKeys sort (ofMembers members) := by
  have hfold (back front : List (String × Json)) (hback : ∀ m ∈ back, UniqueKeys sort m.2)
      (names : (front.map Prod.fst).Nodup) (hfront : ∀ m ∈ front, UniqueKeys sort m.2) :
      UniqueKeys sort (.object (back.foldl (fun made m => setMember m.1 m.2 made) front)) := by
    induction back generalizing front with
    | nil => exact .object names hfront
    | cons m back ih =>
      obtain ⟨hm, hback⟩ := List.forall_mem_cons.mp hback
      refine ih _ hback (nodup_setMember names) fun x hx => ?_
      rcases mem_of_mem_setMember hx with hvalue | hmem
      · exact hvalue ▸ hm
      · exact hfront x hmem
  exact hfold members [] each List.nodup_nil nofun

/-! ## Reading -/

theorem isAtom_of_readUnsigned? {negative : Bool} {cs rest : List Char} {j : Json}
    (h : readUnsigned? negative cs = some (.ok (j, rest))) : isAtom j = true := by
  obtain ⟨whole, -, hj⟩ := Option.map_eq_some_iff.mp h
  dsimp only at hj
  split at hj
  · split at hj <;> cases hj
    rfl
  · cases hj
    rfl

theorem isAtom_of_readAtom {cs rest : List Char} {j : Json} (h : readAtom cs = .ok (j, rest)) :
    isAtom j = true := by
  unfold readAtom at h
  split at h
  · next read hword =>
    cases h
    have hall : ∀ entry ∈ words, isAtom entry.2 = true := by decide
    obtain ⟨entry, hentry, hafter⟩ := List.exists_of_findSome?_eq_some hword
    obtain ⟨after, -, heq⟩ := Option.map_eq_some_iff.mp hafter
    cases heq
    exact hall entry hentry
  · split at h
    · next read hnumber =>
      subst h
      unfold readNumber? at hnumber
      split at hnumber <;> exact isAtom_of_readUnsigned? hnumber
    · cases h

/-- What is read with so much fuel has no name twice. -/
theorem uniqueKeys_of_readValue (fuel : Nat) :
    (∀ cs j rest, readValue fuel cs = .ok (j, rest) → UniqueKeys isAtom j) ∧
      (∀ cs items rest, readItems fuel cs = .ok (items, rest) →
        ∀ item ∈ items, UniqueKeys isAtom item) ∧
      ∀ cs members rest, readMembers fuel cs = .ok (members, rest) →
        ∀ m ∈ members, UniqueKeys isAtom m.2 := by
  induction fuel with
  | zero => exact ⟨nofun, nofun, nofun⟩
  | succ fuel ih =>
    obtain ⟨hvalue, hitems, hmembers⟩ := ih
    refine ⟨fun cs j rest h => ?_, fun cs items rest h => ?_, fun cs members rest h => ?_⟩
    · unfold readValue at h
      split at h
      · obtain ⟨read, -, heq⟩ := exists_of_map_eq_ok h
        cases heq
        exact .atom rfl
      · split at h
        · cases h
          exact .array nofun
        · obtain ⟨read, hread, heq⟩ := exists_of_map_eq_ok h
          cases heq
          exact .array (hitems _ _ _ hread)
      · split at h
        · cases h
          exact .object List.nodup_nil nofun
        · obtain ⟨read, hread, heq⟩ := exists_of_map_eq_ok h
          cases heq
          exact uniqueKeys_ofMembers (hmembers _ _ _ hread)
      · exact .atom (isAtom_of_readAtom h)
    · unfold readItems at h
      obtain ⟨⟨item, after⟩, hread, h⟩ := exists_of_bind_eq_ok h
      have hitem := hvalue _ _ _ hread
      dsimp only at h
      split at h
      · cases h
        exact List.forall_mem_singleton.mpr hitem
      · obtain ⟨⟨others, last⟩, hothers, h⟩ := exists_of_bind_eq_ok h
        cases h
        exact List.forall_mem_cons.mpr ⟨hitem, hitems _ _ _ hothers⟩
      · cases h
    · unfold readMembers at h
      split at h
      · obtain ⟨⟨key, afterKey⟩, -, h⟩ := exists_of_bind_eq_ok h
        dsimp only at h
        split at h
        · obtain ⟨⟨value, afterValue⟩, hread, h⟩ := exists_of_bind_eq_ok h
          have hitem := hvalue _ _ _ hread
          dsimp only at h
          split at h
          · cases h
            exact List.forall_mem_singleton.mpr hitem
          · obtain ⟨⟨others, last⟩, hothers, h⟩ := exists_of_bind_eq_ok h
            cases h
            exact List.forall_mem_cons.mpr ⟨hitem, hmembers _ _ _ hothers⟩
          · cases h
        · cases h
      · cases h

/-- JSON that was read from a text has no name twice in an object. -/
theorem uniqueKeys_of_read {text : String} {j : Json} (h : read text = .ok j) :
    UniqueKeys isAtom j := by
  unfold read at h
  split at h
  · next value hwhole =>
    cases h
    unfold readWholeText at hwhole
    split at hwhole
    · cases hwhole
    · obtain ⟨⟨value, rest⟩, hread, hrest⟩ := exists_of_bind_eq_ok hwhole
      dsimp only at hrest
      split at hrest
      · cases hrest
        exact (uniqueKeys_of_readValue _).1 _ _ _ hread
      · cases hrest
  · cases h

end Conform.Json
