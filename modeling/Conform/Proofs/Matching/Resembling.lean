import Conform.Proofs.Matching.Calm
/-!
# Values that an open match cannot tell apart

Where undeclared properties are allowed, matching looks at the tag and the text of a value, at its
items, and at what it reads under declared names. Values that agree in these, and go on to values
that agree in these again, match the same schemas without predicates, and those that they do not
match they fail at the same path. The relation between such values may lead into itself, so shared
and cyclic values are covered.
-/

set_option autoImplicit false

namespace Conform

/-- What an open match sees of a value, the same of both; items and what is read of objects under
declared names are related. -/
structure Resembles (h : Heap) (declared : Value → Prop) (r : Value → Value → Prop)
    (v v' : Value) : Prop where
  tag : v.typeof = v'.typeof
  text : v.text? = v'.text?
  object : v.isPlainObject = v'.isPlainObject
  items : Option.Rel (List.Forall₂ r) (h.items? v) (h.items? v')
  reads : v.isPlainObject = true → h.isArray v = false → ∀ name, declared name →
    ∃ read read', h.property v name = .ok read ∧ h.property v' name = .ok read' ∧ r read read'

/-- A relation of values that resemble one another at every step. -/
def Resembling (h : Heap) (declared : Value → Prop) (r : Value → Value → Prop) : Prop :=
  ∀ v v', r v v' → Resembles h declared r v v'

section

variable {h : Heap} {declared : Value → Prop} {r : Value → Value → Prop} {v v' : Value}

theorem Resembles.isArray (hr : Resembles h declared r v v') : h.isArray v = h.isArray v' := by
  have hitems := hr.items
  unfold Heap.isArray
  generalize h.items? v = items at hitems ⊢
  generalize h.items? v' = items' at hitems ⊢
  cases hitems <;> rfl

theorem Resembles.flip (hr : Resembles h declared r v v') :
    Resembles h declared (fun x x' => r x' x) v' v := by
  have harray := hr.isArray
  refine ⟨hr.tag.symm, hr.text.symm, hr.object.symm, ?_, fun hobject hsingle name hn => ?_⟩
  · have hitems := hr.items
    generalize h.items? v = items at hitems ⊢
    generalize h.items? v' = items' at hitems ⊢
    cases hitems with
    | none => exact .none
    | some each => exact .some each.flip
  · obtain ⟨read, read', hread, hread', hrel⟩ :=
      hr.reads (hr.object.trans hobject) (harray.trans hsingle) name hn
    exact ⟨read', read, hread', hread, hrel⟩

theorem Resembling.flip (hr : Resembling h declared r) :
    Resembling h declared fun x x' => r x' x :=
  fun v v' hv => (hr v' v hv).flip

/-- Nothing fails at values that are read without failing. -/
theorem closedUnderSteps_of_resembling (hr : Resembling h declared r) :
    ClosedUnderSteps h declared fun v => ∃ v', r v v' := by
  refine ⟨fun v items ⟨v', hv⟩ hitems => ?_, fun name hn v ⟨v', hv⟩ hobject hsingle => ?_⟩
  · have hrel := (hr v v' hv).items
    rw [hitems] at hrel
    generalize h.items? v' = items' at hrel
    cases hrel with
    | some each => exact forall_mem_of_forall₂_right each.flip
  · obtain ⟨read, read', hread, -, hrel⟩ := (hr v v' hv).reads hobject hsingle name hn
    exact ⟨read, hread, read', hrel⟩

end

/-! ## Pairs of entries and items -/

/-- Pairs of one entry with items in a relation. -/
def SameEntry (r : Value → Value → Prop) (pair pair' : Value × Value) : Prop :=
  pair.1 = pair'.1 ∧ r pair.2 pair'.2

theorem zip_resembling {r : Value → Value → Prop} (members : List Value) {items items' : List Value}
    (h : List.Forall₂ r items items') :
    List.Forall₂ (SameEntry r) (members.zip items) (members.zip items') := by
  induction h generalizing members with
  | nil => cases members <;> exact .nil
  | cons hitem _ ih =>
    cases members with
    | nil => exact .nil
    | cons member members => exact .cons ⟨rfl, hitem⟩ (ih members)

theorem pairing_resembling {r : Value → Value → Prop} (members : List Value)
    {items items' : List Value} (h : List.Forall₂ r items items') :
    Option.Rel (List.Forall₂ (SameEntry r)) (pairing members items) (pairing members items') := by
  rcases members with _ | ⟨member, _ | ⟨second, rest⟩⟩
  · exact .some .nil
  · refine .some ?_
    rw [List.forall₂_map_left_iff, List.forall₂_map_right_iff]
    exact h.imp fun item item' hitem => ⟨rfl, hitem⟩
  · rw [pairing_of_several (by simp), pairing_of_several (by simp), h.length_eq]
    split
    · exact .some (zip_resembling _ h)
    · exact .none

theorem pairs_resembling {s : Setting} {declared : Value → Prop} {r : Value → Value → Prop}
    {v v' : Value} (hr : Resembles s.heap declared r v v') (members : List Value) :
    Option.Rel (List.Forall₂ (SameEntry r)) (s.pairs members v) (s.pairs members v') := by
  have hitems := hr.items
  unfold Setting.pairs
  generalize s.heap.items? v = items at hitems ⊢
  generalize s.heap.items? v' = items' at hitems ⊢
  cases hitems with
  | none => exact .none
  | some each => exact pairing_resembling members each

theorem mem_of_mem_pairs {s : Setting} {members : List Value} {v : Value}
    {pairs : List (Value × Value)} (h : s.pairs members v = some pairs) {pair : Value × Value}
    (hp : pair ∈ pairs) : pair.1 ∈ members := by
  obtain ⟨items, -, hpairing⟩ := Option.bind_eq_some_iff.mp h
  exact (mem_of_mem_pairing hpairing hp).1

/-! ## Matching -/

/-- A schema without predicates that declares nothing but names of a class. -/
structure Unasked (h : Heap) (declared : Value → Prop) (schema : Value) : Prop where
  wellFormed : WellFormed h schema
  noPredicate : ∀ node, Within h node schema → h.kind? node ≠ some .predicate
  names : ∀ name, h.Declares schema name → declared name

theorem Unasked.ofKind {h : Heap} {declared : Value → Prop} {schema : Value} {k : Kind}
    (hk : h.kind? schema = some k) (hne : k ≠ .predicate)
    (names : ∀ entries, k = .object entries → ∀ e ∈ entries, declared e.1)
    (parts : ∀ part ∈ k.parts, Unasked h declared part) : Unasked h declared schema := by
  refine ⟨.intro hk fun part hp => (parts part hp).wellFormed, ?_, ?_⟩
  · refine forall_within_of_kind hk ?_ fun part hp => (parts part hp).noPredicate
    rw [hk]
    exact fun heq => hne (Option.some.inj heq)
  · exact forall_declares_of_kind hk names fun part hp => (parts part hp).names

theorem Unasked.part {h : Heap} {declared : Value → Prop} {schema part : Value} {k : Kind}
    (hu : Unasked h declared schema) (hk : h.kind? schema = some k) (hp : part ∈ k.parts) :
    Unasked h declared part :=
  ⟨hu.wellFormed.part hk hp, fun node within => hu.noPredicate node (.inside hk hp within),
    fun name hd => hu.names name (hd.ofPart hk hp)⟩

section

variable {s : Setting} {w : Validator} {declared : Value → Prop} {r : Value → Value → Prop}
  {schema v v' : Value}

theorem Unasked.calm (hu : Unasked s.heap declared schema) (hr : Resembling s.heap declared r)
    (hv : r v v') : Calm s w schema v :=
  calm_of_closedUnderSteps (closedUnderSteps_of_resembling hr) hu.wellFormed hu.names
    (fun node within kind => absurd kind (hu.noPredicate node within)) v ⟨v', hv⟩

theorem admits_of_resembles (allows : w.closed = false) {entries : List (Value × Value)}
    (hr : Resembles s.heap declared r v v') (ha : s.Admits w entries v) :
    s.Admits w entries v' := by
  refine ⟨hr.object ▸ ha.object, hr.isArray ▸ ha.notArray, fun hclosed => ?_⟩
  rw [allows] at hclosed
  cases hclosed

theorem matches_of_resembling (allows : w.closed = false) (hr : Resembling s.heap declared r)
    (hu : Unasked s.heap declared schema) (hv : r v v') (hm : Matches s w schema v) :
    Matches s w schema v' := by
  have hwf := hu.wellFormed
  induction hwf generalizing v v' with
  | @intro schema k kind parts ih =>
    have hresembles := hr v v' hv
    have hpart (part : Value) (hp : part ∈ k.parts) (inner inner' : Value) (hi : r inner inner') :
        Matches s w part inner → Matches s w part inner' :=
      ih part hp (hu.part kind hp) hi
    cases k with
    | atom name =>
      have htag := (matches_atom_iff kind).mp hm
      exact .atom kind (hresembles.tag ▸ htag)
    | predicate => exact absurd kind (hu.noPredicate schema .here)
    | pattern p =>
      have hfound := (matches_pattern_iff kind).mp hm
      rw [hresembles.text] at hfound
      exact (matches_pattern_iff kind).mpr hfound
    | array members =>
      obtain ⟨pairs, hpairs, hall⟩ := (matches_array_iff kind).mp hm
      have hrel := pairs_resembling hresembles members
      rw [hpairs] at hrel
      generalize hpairs' : s.pairs members v' = found at hrel
      cases hrel with
      | some each =>
        refine (matches_array_iff kind).mpr ⟨_, hpairs', fun pair' hmem' => ?_⟩
        obtain ⟨i, here'⟩ := List.mem_iff_getElem?.mp hmem'
        obtain ⟨pair, here, hentry, hitem⟩ := exists_getElem?_of_forall₂ each.flip here'
        have hmem := List.mem_of_getElem? here
        have hm := hall pair hmem
        rw [hentry] at hm
        exact hpart pair'.1 (hentry ▸ mem_of_mem_pairs hpairs hmem) pair.2 pair'.2 hitem hm
    | union members =>
      obtain ⟨member, hmem, hm⟩ := (matches_union_iff kind).mp hm
      exact .union kind hmem (hpart member hmem v v' hv hm)
    | object entries =>
      obtain ⟨admits, hfits, -⟩ := (matches_object_iff kind).mp hm
      refine (matches_object_iff kind).mpr
        ⟨admits_of_resembles allows hresembles admits, fun e he => ?_, fun hclosed => ?_⟩
      · obtain ⟨read, hread, hm⟩ := hfits e he
        obtain ⟨x, read', hx, hread', hrel⟩ :=
          hresembles.reads admits.object admits.notArray e.1 (hu.names e.1 (declares_of_mem kind he))
        cases hread.symm.trans hx
        exact ⟨read', hread', hpart e.2 (Kind.mem_parts_object he) read read' hrel hm⟩
      · rw [allows] at hclosed
        cases hclosed

/-- A schema matches both values or neither. -/
theorem matches_iff_of_resembling (allows : w.closed = false) (hr : Resembling s.heap declared r)
    (hu : Unasked s.heap declared schema) (hv : r v v') :
    Matches s w schema v ↔ Matches s w schema v' :=
  ⟨matches_of_resembling allows hr hu hv, matches_of_resembling allows hr.flip hu hv⟩

end

/-! ## Failing walks -/

section

variable {s : Setting} {w : Validator} {declared : Value → Prop} {r : Value → Value → Prop}
  {schema v v' : Value}

theorem fails_of_resembling (allows : w.closed = false) (hr : Resembling s.heap declared r)
    (hu : Unasked s.heap declared schema) (hv : r v v') (hf : Fails s w schema v) :
    Fails s w schema v' := by
  have hresembles := hr v v' hv
  cases hf with
  | atom kind tag => exact .atom kind (hresembles.tag ▸ tag)
  | predicate kind => exact absurd kind (hu.noPredicate schema .here)
  | pattern kind missed => exact .pattern kind (hresembles.text ▸ missed)
  | @array members kind misfit =>
    have hrel := pairs_resembling hresembles members
    rw [misfit] at hrel
    generalize hpairs' : s.pairs members v' = found at hrel
    cases hrel
    exact .array kind hpairs'
  | union kind none =>
    refine .union kind fun member hmem hm => none member hmem ?_
    exact (matches_iff_of_resembling allows hr (hu.part kind hmem) hv).mpr hm
  | object kind refused =>
    exact .object kind fun ha => refused (admits_of_resembles allows hresembles.flip ha)
  | undeclared kind admits fits closed =>
    rw [allows] at closed
    cases closed

/-- A walk takes the same step in both values, to parts that resemble one another. -/
theorem exists_enters_of_resembling (allows : w.closed = false)
    (hr : Resembling s.heap declared r) (hu : Unasked s.heap declared schema) (hv : r v v')
    {step part inner : Value} (he : Enters s w schema v step part inner) :
    ∃ inner', Enters s w schema v' step part inner' ∧ r inner inner' ∧
      Unasked s.heap declared part := by
  have hresembles := hr v v' hv
  cases he with
  | @item _ _ members pairs i kind fits here earlier =>
    have hrel := pairs_resembling hresembles members
    rw [fits] at hrel
    generalize hpairs' : s.pairs members v' = found at hrel
    cases hrel with
    | some each =>
      obtain ⟨⟨part', inner'⟩, here', hentry, hitem⟩ := exists_getElem?_of_forall₂ each here
      cases hentry
      refine ⟨inner', .item i kind hpairs' here' fun j pair' hj hpair' => ?_, hitem, ?_⟩
      · obtain ⟨pair, hpair, hsame⟩ := exists_getElem?_of_forall₂ each.flip hpair'
        have hpu : Unasked s.heap declared pair.1 :=
          hu.part kind (mem_of_mem_pairs fits (List.mem_of_getElem? hpair))
        rw [← hsame.1]
        exact matches_of_resembling allows hr hpu hsame.2 (earlier j pair hj hpair)
      · have hmem : part ∈ members := mem_of_mem_pairs fits (List.mem_of_getElem? here)
        exact hu.part kind hmem
  | @property _ _ _ entries i kind admits here earlier read =>
    have hname (e : Value × Value) (hmem : e ∈ entries) : declared e.1 :=
      hu.names e.1 (declares_of_mem kind hmem)
    have hmem := List.mem_of_getElem? here
    obtain ⟨x, inner', hx, hread', hrel⟩ := 
      hresembles.reads admits.object admits.notArray step (hname _ hmem)
    cases read.symm.trans hx
    refine ⟨inner', .property i kind (admits_of_resembles allows hresembles admits) here
      (fun j e hj hjth => ?_) hread', hrel, hu.part kind (Kind.mem_parts_object hmem)⟩
    have hmem := List.mem_of_getElem? hjth
    obtain ⟨read, hread, hm⟩ := earlier j e hj hjth
    obtain ⟨y, read', hy, hread', hrel⟩ := 
      hresembles.reads admits.object admits.notArray e.1 (hname e hmem)
    cases hread.symm.trans hy
    have hpu : Unasked s.heap declared e.2 := hu.part kind (Kind.mem_parts_object hmem)
    exact ⟨read', hread', matches_of_resembling allows hr hpu hrel hm⟩

/-- The walks to the first failure follow the same path and end at the same schema. -/
theorem exists_failingWalk_of_resembling (allows : w.closed = false)
    (hr : Resembling s.heap declared r) (hu : Unasked s.heap declared schema) (hv : r v v')
    {path : List Value} {expected actual : Value}
    (walk : FailingWalk s w schema v path expected actual) :
    ∃ actual', FailingWalk s w schema v' path expected actual' := by
  induction walk generalizing v' with
  | here fails => exact ⟨v', .here (fails_of_resembling allows hr hu hv fails)⟩
  | down enters rest ih =>
    obtain ⟨inner', enters', hrel, hpart⟩ := exists_enters_of_resembling allows hr hu hv enters
    obtain ⟨actual', rest'⟩ := ih hpart hrel
    exact ⟨actual', .down enters' rest'⟩

end

/-! ## Validations -/

/-- Validations of values that resemble one another both find nothing, or both find a mismatch with
the same path and the same expected schema. -/
theorem validate_of_resembling {s : Setting} {declared : Value → Prop} {r : Value → Value → Prop}
    {schema v v' : Value} (allows : s.owner.closed = false) (hr : Resembling s.heap declared r)
    (hu : Unasked s.heap declared schema) (hv : r v v') (t : Trace) :
    ((s.validate schema v t).1 = .ok none ∧ (s.validate schema v' t).1 = .ok none) ∨
      ∃ m m', (s.validate schema v t).1 = .ok (some m) ∧
        (s.validate schema v' t).1 = .ok (some m') ∧ m.path = m'.path ∧
        m.expected = m'.expected := by
  have hmatch := matches_iff_of_resembling (w := s.owner) allows hr hu hv
  obtain ⟨found, u, hrun, hj⟩ := exists_validate_judged hu.wellFormed (hu.calm hr hv) t
  obtain ⟨found', u', hrun', hj'⟩ :=
    exists_validate_judged hu.wellFormed (hu.calm hr.flip hv) t
  rw [hrun, hrun']
  cases hj with
  | passed hm =>
    cases hj' with
    | passed => exact .inl ⟨rfl, rfl⟩
    | refused walk' => exact absurd (hmatch.mp hm) (not_matches_of_failingWalk walk')
  | refused walk =>
    cases hj' with
    | passed hm' => exact absurd (hmatch.mpr hm') (not_matches_of_failingWalk walk)
    | refused walk' =>
      obtain ⟨actual', walk''⟩ := exists_failingWalk_of_resembling allows hr hu hv walk
      obtain ⟨rfl, rfl, -⟩ := eq_of_failingWalk walk'' walk'
      exact .inr ⟨_, _, rfl, rfl, rfl, rfl⟩

end Conform
