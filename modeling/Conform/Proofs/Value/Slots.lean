import Conform.Proofs.Value.Owned
/-!
# Attributes and slots

What an object of a chain of classes owns are the attributes that hold something, in slots or
outside them: each is listed once, and read under the name that lists it. Two kinds of slot are
taken wrongly. A class whose name has nothing but underscores keeps its private slots under their
own names, and they are looked for under longer ones, so what they hold is left out. A slot that
holds nothing is listed where reading finds something else under its name, such as an attribute of
a later class. Main statement: `ownNames_slotted`.
-/

set_option autoImplicit false

namespace Conform

/-! ## Names of slots -/

/-- Private names start with two underscores and do not end with two. -/
def isPrivateName (slot : String) : Bool := slot.startsWith "__" && !slot.endsWith "__"

def SlotClass.isBlank (c : SlotClass) : Bool := c.name.toList.all (· = '_')

theorem privateName_of_public {slot : String} (hslot : isPrivateName slot = false)
    (className : String) : privateName className slot = slot :=
  if_neg (by rw [← isPrivateName, hslot]; exact Bool.false_ne_true)

theorem mem_stored_iff {c : SlotClass} {name : String} :
    name ∈ c.stored ↔
      (∃ slot ∈ c.slotNames, storedName c.name slot = name) ∧ isSpecialSlot name = false := by
  simp [SlotClass.stored]

theorem mem_declared_iff {c : SlotClass} {name : String} :
    name ∈ c.declared ↔
      (∃ slot ∈ c.slotNames, privateName c.name slot = name) ∧ isSpecialSlot name = false := by
  simp [SlotClass.declared]

/-- Only private slots of a class without a name to put in front are looked for elsewhere. -/
theorem mem_declared_of_mem_stored {c : SlotClass} {name : String} (hname : name ∈ c.stored) :
    name ∈ c.declared ∨
      (c.isBlank = true ∧ name ∈ c.slotNames ∧ isPrivateName name = true) := by
  obtain ⟨⟨slot, hslot, hstored⟩, hspecial⟩ := mem_stored_iff.mp hname
  unfold storedName at hstored
  cases hblank : c.isBlank with
  | false =>
    rw [← SlotClass.isBlank, hblank, if_neg Bool.false_ne_true] at hstored
    exact .inl (mem_declared_iff.mpr ⟨⟨slot, hslot, hstored⟩, hspecial⟩)
  | true =>
    rw [← SlotClass.isBlank, hblank, if_pos rfl] at hstored
    subst hstored
    cases hprivate : isPrivateName slot with
    | true => exact .inr ⟨rfl, hslot, rfl⟩
    | false =>
      have hdeclared : privateName c.name slot = slot := privateName_of_public hprivate c.name
      exact .inl (mem_declared_iff.mpr ⟨⟨slot, hslot, hdeclared⟩, hspecial⟩)

/-! ## What classes know -/

variable {h : Heap} {v : Value} {chain : ClassChain} {held : List (String × Value)} {name : String}

/-- A name that leads to a slot is one under which some class keeps a slot. -/
theorem exists_stored_of_entry? (hslot : chain.entry? name = some .slot) :
    ∃ c ∈ chain, name ∈ c.1.stored := by
  obtain ⟨c, hc, hentry⟩ := List.exists_of_findSome?_eq_some hslot
  refine ⟨c, List.mem_reverse.mp hc, ?_⟩
  unfold classEntry? at hentry
  split at hentry
  · next hstored => exact List.contains_iff_mem.mp hstored
  · obtain ⟨w, -, hw⟩ := Option.map_eq_some_iff.mp hentry
    cases hw

theorem attribute?_eq_none (plain : ∀ c ∈ chain, c.2 = []) : chain.attribute? name = none := by
  unfold ClassChain.attribute?
  split
  · next w hentry =>
    obtain ⟨c, hc, hfound⟩ := List.exists_of_findSome?_eq_some hentry
    unfold classEntry? at hfound
    rw [plain c (List.mem_reverse.mp hc)] at hfound
    split at hfound <;> cases hfound
  · rfl

/-- A slot that no class of the chain lists under the name by which it is read. -/
def Overlooked (chain : ClassChain) (name : String) : Prop :=
  chain.entry? name = some .slot ∧ ∀ c ∈ chain, name ∉ c.1.declared

/-- What is overlooked is a private slot of a class whose name has nothing but underscores. -/
theorem Overlooked.exists_class (hname : Overlooked chain name) :
    ∃ c ∈ chain, c.1.isBlank = true ∧ name ∈ c.1.slotNames ∧ isPrivateName name = true := by
  obtain ⟨hslot, hnone⟩ := hname
  obtain ⟨c, hc, hstored⟩ := exists_stored_of_entry? hslot
  rcases mem_declared_of_mem_stored hstored with hdeclared | hblank
  · exact absurd hdeclared (hnone c hc)
  · exact ⟨c, hc, hblank⟩

/-- A declared slot that holds nothing, while reading finds `w` under its name: an attribute of a
class that hides the slot, or else what the classes give. -/
structure Borrowed (h : Heap) (v : Value) (chain : ClassChain) (held : List (String × Value))
    (name : String) (w : Value) : Prop where
  declared : ∃ c ∈ chain, name ∈ c.1.declared
  unset : name ∉ held.map Prod.fst
  found : (chain.attribute? name <|> h.inherited v name) = some w

/-! ## Reading -/

theorem lookup_eq_none_of_not_mem (hname : name ∉ held.map Prod.fst) : held.lookup name = none := by
  rw [List.lookup_eq_none_iff]
  intro e he
  have hne : name ≠ e.1 := fun heq => hname (List.mem_map.mpr ⟨e, he, heq.symm⟩)
  simpa using hne

/-- What an object holds under a name is looked up under that name. -/
theorem lookup_of_mem {w : Value} (distinct : (held.map Prod.fst).Nodup)
    (hmem : (name, w) ∈ held) : held.lookup name = some w := by
  induction held with
  | nil => cases hmem
  | cons e held ih =>
    obtain ⟨key, first⟩ := e
    obtain ⟨hnew, hrest⟩ := List.nodup_cons.mp distinct
    rcases List.mem_cons.mp hmem with heq | hmem
    · cases heq
      exact List.lookup_cons_self
    · have hne : (name == key) = false := by
        have hname : name ∈ held.map Prod.fst := List.mem_map_of_mem hmem
        exact beq_false_of_ne fun h => hnew (h ▸ hname)
      rw [List.lookup_cons, hne]
      exact ih hrest hmem

variable {handle : Option Nat}

theorem attribute?_slotted :
    h.attribute? (.object handle (.slotted chain held)) name =
      .ok ((held.lookup name <|> chain.attribute? name) <|>
        h.inherited (.object handle (.slotted chain held)) name) :=
  rfl

theorem property_of_attribute?_slotted {w : Value}
    (hread : h.attribute? (.object handle (.slotted chain held)) name = .ok (some w)) :
    h.property (.object handle (.slotted chain held)) (.str name) = .ok w := by
  show (h.attribute? (.object handle (.slotted chain held)) name).map
    (fun read => read.getD .undefined) = .ok w
  rw [hread]
  rfl

theorem attribute?_of_mem_held {w : Value} (distinct : (held.map Prod.fst).Nodup)
    (hmem : (name, w) ∈ held) :
    h.attribute? (.object handle (.slotted chain held)) name = .ok (some w) := by
  rw [attribute?_slotted, lookup_of_mem distinct hmem]
  rfl

theorem attribute?_of_unset (hname : name ∉ held.map Prod.fst) :
    h.attribute? (.object handle (.slotted chain held)) name =
      .ok (chain.attribute? name <|> h.inherited (.object handle (.slotted chain held)) name) := by
  rw [attribute?_slotted, lookup_eq_none_of_not_mem hname]
  rfl

/-- Reading finds something under just the names that are held, and those that are found in the
classes. -/
theorem hasAttribute_slotted_iff :
    h.hasAttribute (.object handle (.slotted chain held)) name = true ↔
      name ∈ held.map Prod.fst ∨
        ∃ w, (chain.attribute? name <|> h.inherited (.object handle (.slotted chain held)) name)
          = some w := by
  have hfound {read : Option Value}
      (hread : h.attribute? (.object handle (.slotted chain held)) name = .ok read) :
      h.hasAttribute (.object handle (.slotted chain held)) name = true ↔ ∃ w, read = some w := by
    unfold Heap.hasAttribute
    rw [hread]
    cases read <;> simp
  by_cases hname : name ∈ held.map Prod.fst
  · refine iff_of_true ?_ (.inl hname)
    cases hlookup : held.lookup name with
    | none =>
      obtain ⟨e, he, rfl⟩ := List.mem_map.mp hname
      exact absurd (List.lookup_eq_none_iff.mp hlookup e he) (by simp)
    | some w => exact (hfound attribute?_slotted).mpr ⟨w, by rw [hlookup]; rfl⟩
  · rw [hfound (attribute?_of_unset hname), or_iff_right hname]

/-! ## Names that are listed -/

theorem mem_openNames_iff :
    name ∈ chain.openNames held ↔ name ∈ held.map Prod.fst ∧ chain.entry? name ≠ some .slot := by
  unfold ClassChain.openNames
  rw [List.mem_filter]
  refine and_congr_right fun _ => ?_
  cases chain.entry? name with
  | none => simp
  | some entry => cases entry <;> simp

theorem mem_presentSlots_iff {present : String → Bool} :
    name ∈ chain.presentSlots present ↔
      (∃ c ∈ chain, name ∈ c.1.declared) ∧ present name = true := by
  simp [ClassChain.presentSlots]

/-- What is held is listed unless it is overlooked, and nothing else is but what is borrowed. -/
theorem mem_ownNames_slotted_iff :
    name ∈ chain.ownNames held (h.hasAttribute (.object handle (.slotted chain held))) ↔
      (name ∈ held.map Prod.fst ∧ ¬ Overlooked chain name) ∨
        ∃ w, Borrowed h (.object handle (.slotted chain held)) chain held name w := by
  have hlisted : name ∈ chain.ownNames held
      (h.hasAttribute (.object handle (.slotted chain held))) ↔
      name ∈ chain.openNames held ∨
        ((∃ c ∈ chain, name ∈ c.1.declared) ∧
          h.hasAttribute (.object handle (.slotted chain held)) name = true) ∧
        name ∉ chain.openNames held := by
    rw [ClassChain.ownNames, List.mem_append, List.mem_filter, mem_presentSlots_iff]
    simp
  rw [hlisted, mem_openNames_iff, hasAttribute_slotted_iff]
  constructor
  · rintro (⟨hheld, hopen⟩ | ⟨⟨hdeclared, hfound⟩, -⟩)
    · exact .inl ⟨hheld, fun hname => hopen hname.1⟩
    · by_cases hheld : name ∈ held.map Prod.fst
      · refine .inl ⟨hheld, fun hname => ?_⟩
        obtain ⟨c, hc, hmem⟩ := hdeclared
        exact hname.2 c hc hmem
      · obtain ⟨w, hw⟩ := hfound.resolve_left hheld
        exact .inr ⟨w, hdeclared, hheld, hw⟩
  · rintro (⟨hheld, hseen⟩ | ⟨w, hborrowed⟩)
    · by_cases hslot : chain.entry? name = some .slot
      · have hdeclared : ∃ c ∈ chain, name ∈ c.1.declared := by
          by_contra hnone
          exact hseen ⟨hslot, fun c hc hmem => hnone ⟨c, hc, hmem⟩⟩
        exact .inr ⟨⟨hdeclared, .inl hheld⟩, fun hopen => hopen.2 hslot⟩
      · exact .inl ⟨hheld, hslot⟩
    · exact .inr ⟨⟨hborrowed.declared, .inr ⟨w, hborrowed.found⟩⟩,
        fun hopen => hborrowed.unset hopen.1⟩

/-- An object of a chain of classes lists what it holds, each name once, except for what is
overlooked: that is a private slot of a class whose name has nothing but underscores. All else that
it lists are declared slots that hold nothing but that reading finds elsewhere. What is read under
a name that holds something is what is held there, and what is read under the name of such a slot
is what is found elsewhere. -/
theorem ownNames_slotted (distinct : (held.map Prod.fst).Nodup) :
    ∃ names : List String,
      h.ownNames (.object handle (.slotted chain held)) = names.map .str ∧ names.Nodup ∧
      (∀ name, name ∈ names ↔ (name ∈ held.map Prod.fst ∧ ¬ Overlooked chain name) ∨
        ∃ w, Borrowed h (.object handle (.slotted chain held)) chain held name w) ∧
      (∀ name w, (name, w) ∈ held ∨
          Borrowed h (.object handle (.slotted chain held)) chain held name w →
        h.property (.object handle (.slotted chain held)) (.str name) = .ok w) ∧
      ∀ name, Overlooked chain name →
        ∃ c ∈ chain, c.1.isBlank = true ∧ name ∈ c.1.slotNames ∧ isPrivateName name = true := by
  refine ⟨_, rfl, ClassChain.nodup_ownNames distinct _, fun name => mem_ownNames_slotted_iff,
    fun name w hread => property_of_attribute?_slotted ?_, fun name => Overlooked.exists_class⟩
  rcases hread with hmem | hborrowed
  · exact attribute?_of_mem_held distinct hmem
  · rw [attribute?_of_unset hborrowed.unset, hborrowed.found]

/-! ### Examples -/

/-- A class without slots below two with private ones, the first of which names a single one. -/
def accountChain : ClassChain :=
  [(⟨"Account", .one "__key"⟩, []), (⟨"_Account", .several ["__key", "limit"]⟩, []),
    (⟨"Open", .absent⟩, [("limit", .int 1), ("kind", .null)])]

def accountHeld : List (String × Value) :=
  [("note", .null), ("_Account__key", .int 7), ("limit", .int 9)]

theorem ownNames_slotted_account :
    (accountHeld.map Prod.fst).Nodup ∧ ∃ names : List String,
      Heap.empty.ownNames (.object none (.slotted accountChain accountHeld)) = names.map .str ∧
      names.Nodup ∧
      (∀ name, name ∈ names ↔
        (name ∈ accountHeld.map Prod.fst ∧ ¬ Overlooked accountChain name) ∨
          ∃ w, Borrowed .empty (.object none (.slotted accountChain accountHeld)) accountChain
            accountHeld name w) ∧
      (∀ name w, (name, w) ∈ accountHeld ∨
          Borrowed .empty (.object none (.slotted accountChain accountHeld)) accountChain
            accountHeld name w →
        Heap.empty.property (.object none (.slotted accountChain accountHeld)) (.str name)
          = .ok w) ∧
      ∀ name, Overlooked accountChain name →
        ∃ c ∈ accountChain, c.1.isBlank = true ∧ name ∈ c.1.slotNames ∧
          isPrivateName name = true :=
  ⟨by decide, ownNames_slotted (by decide)⟩

/-- A class named `_` with one private slot. -/
def blankChain : ClassChain := [(⟨"_", .several ["__x"]⟩, [])]

theorem overlooked_blank : Overlooked blankChain "__x" := by
  have hprivate : isPrivateName "__x" = true := by decide +kernel
  have hspecial : isSpecialSlot "__x" = false := by decide +kernel
  have hstored : storedName "_" "__x" = "__x" := if_pos (by simp)
  have hdeclared : privateName "_" "__x" = "___x" := by
    have hnothing : ("_".dropWhile (· = '_')).toString = "" := by simp
    rw [privateName, ← isPrivateName, if_pos hprivate, hnothing]
    rfl
  refine ⟨?_, fun c hc hname => ?_⟩
  · have hmem : "__x" ∈ (⟨"_", .several ["__x"]⟩ : SlotClass).stored :=
      mem_stored_iff.mpr ⟨⟨"__x", List.mem_singleton_self _, hstored⟩, hspecial⟩
    have hentry : classEntry? (⟨"_", .several ["__x"]⟩, []) "__x" = some .slot :=
      if_pos (List.contains_iff_mem.mpr hmem)
    exact congrArg (fun entry => entry <|> none) hentry
  · cases List.mem_singleton.mp hc
    obtain ⟨⟨slot, hslot, heq⟩, -⟩ := mem_declared_iff.mp hname
    cases List.mem_singleton.mp hslot
    rw [hdeclared] at heq
    exact absurd heq (by decide)

/-- A class with a slot, below one that has an attribute of that name. -/
def hiddenChain : ClassChain :=
  [(⟨"A", .several ["x"]⟩, []), (⟨"B", .several []⟩, [("x", .int 5)])]

theorem borrowed_hidden :
    Borrowed .empty (.object none (.slotted hiddenChain [])) hiddenChain [] "x" (.int 5) where
  declared := by
    refine ⟨_, List.mem_cons_self .., mem_declared_iff.mpr ⟨⟨"x", ?_, ?_⟩, by decide +kernel⟩⟩
    · exact List.mem_singleton_self _
    · exact privateName_of_public (by decide +kernel) "A"
  unset := nofun
  found := rfl

/-- A private slot of a class named `_` holds something that is read under the slot's name, and
that is not listed. A slot that holds nothing is listed where a later class has an attribute of its
name, and that attribute is read. -/
theorem slots_misjudged :
    (Heap.empty.ownNames (.object none (.slotted blankChain [("__x", .int 1)])) = [] ∧
      Heap.empty.property (.object none (.slotted blankChain [("__x", .int 1)]))
        (.str "__x") = .ok (.int 1)) ∧
    .str "x" ∈ Heap.empty.ownNames (.object none (.slotted hiddenChain [])) ∧
      Heap.empty.property (.object none (.slotted hiddenChain [])) (.str "x") = .ok (.int 5) := by
  have hempty : (([] : List (String × Value)).map Prod.fst).Nodup := List.nodup_nil
  refine ⟨⟨?_, rfl⟩, ?_, rfl⟩
  · refine List.map_eq_nil_iff.mpr (List.eq_nil_iff_forall_not_mem.mpr fun name hname => ?_)
    rcases mem_ownNames_slotted_iff.mp hname with ⟨hheld, hseen⟩ | ⟨w, hborrowed⟩
    · cases List.mem_singleton.mp hheld
      exact hseen overlooked_blank
    · have hnone : blankChain.attribute? name = none :=
        attribute?_eq_none (List.forall_mem_singleton.mpr rfl)
      have hfound := hborrowed.found
      rw [hnone] at hfound
      cases hfound
  · exact List.mem_map_of_mem (mem_ownNames_slotted_iff.mpr (.inr ⟨_, borrowed_hidden⟩))

end Conform
