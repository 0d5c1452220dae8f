import Conform.Proofs.Matching.Resembling
import Conform.Proofs.Value.Owned
/-!
# Properties that an open match does not look at

Entries may be put into any mappings of a value, at any depth, under names that the schema does not
declare, or as undefined under new names: where undeclared properties are allowed, the outcome of a
validation stays what it was. Main statement: `validate_of_widened`.
-/

set_option autoImplicit false

namespace Conform

/-! ## Links and what is read through them -/

section

variable {h : Heap}

theorem property_of_entries {v name : Value} {entries : List (Value × Value)}
    (hv : h.entries? v = some entries) (hn : name.unhashable? = none) :
    h.property v name = .ok ((h.lookup name entries).getD .undefined) := by
  unfold Heap.property
  rw [hv]
  simp only [Value.asKey, hn]
  rfl

theorem entries?_of_items {v : Value} {items : List Value} (hv : h.items? v = some items) :
    h.entries? v = none := by
  unfold Heap.items? at hv
  unfold Heap.entries?
  split at hv <;> simp_all

/-- What is read of a mapping is read through links to it. -/
theorem property_link {a : Nat} (hsingle : h.isArray (.link a) = false) (name : Value) :
    h.property (.link a) name = h.property (h.cell a) name := by
  rcases cell_cases h a with ⟨items, hcell⟩ | ⟨entries, hcell⟩
  · rw [Heap.isArray, Heap.items?, Heap.resolve, hcell] at hsingle
    cases hsingle
  · have hlink : h.entries? (.link a) = some entries := by
      rw [Heap.entries?, Heap.resolve, hcell]
    unfold Heap.property
    rw [hlink, hcell]
    rfl

variable {declared : Value → Prop} {r : Value → Value → Prop}

theorem Resembles.ofLink {a : Nat} {v' : Value} (hr : Resembles h declared r (h.cell a) v') :
    Resembles h declared r (.link a) v' := by
  have hitems : h.items? (.link a) = h.items? (h.cell a) := by
    rw [Heap.items?, Heap.items?, resolve_cell]
    rfl
  have hseen : (h.cell a).typeof = (Value.link a).typeof ∧
      (h.cell a).text? = (Value.link a).text? ∧
      (h.cell a).isPlainObject = (Value.link a).isPlainObject := by
    rcases cell_cases h a with ⟨items, hcell⟩ | ⟨entries, hcell⟩ <;> rw [hcell] <;>
      exact ⟨rfl, rfl, rfl⟩
  obtain ⟨htag, htext, hobject⟩ := hseen
  refine ⟨htag ▸ hr.tag, htext ▸ hr.text, hobject ▸ hr.object, hitems ▸ hr.items, ?_⟩
  intro hplain hsingle name hn
  rw [property_link hsingle]
  rw [Heap.isArray, hitems] at hsingle
  exact hr.reads (hobject.trans hplain) hsingle name hn

theorem Resembles.ofResolveLeft {v v' : Value} (hr : Resembles h declared r (h.resolve v) v') :
    Resembles h declared r v v' := by
  cases v with
  | link a => exact hr.ofLink
  | _ => exact hr

theorem Resembles.ofResolve {v v' : Value}
    (hr : Resembles h declared r (h.resolve v) (h.resolve v')) : Resembles h declared r v v' :=
  hr.ofResolveLeft.flip.ofResolveLeft.flip

end

/-! ## Scalars -/

section

variable {h : Heap} {v : Value}

theorem resolve_of_flat (hv : v.isPlainObject = false) : h.resolve v = v := by
  refine resolve_of_ne_link h ?_
  rintro a rfl
  cases hv

theorem items?_of_flat (hv : v.isPlainObject = false) : h.items? v = none := by
  unfold Heap.items?
  rw [resolve_of_flat hv]
  split
  · cases hv
  · cases hv
  · rfl

theorem isPlainObject_int (n : Int) : (Value.int n).isPlainObject = false := by
  simp only [Value.isPlainObject, Value.tag, integerTag]
  split <;> rfl

end

/-! ## Entries put in -/

/-- Entries among which others were put, each under a name that is not declared or as undefined;
what is under the names that were there is related. -/
inductive Inserted (h : Heap) (declared : Value → Prop) (r : Value → Value → Prop) :
    (entries entries' : List (Value × Value)) → Prop
  | nil : Inserted h declared r [] []
  | kept {name value value' : Value} {entries entries' : List (Value × Value)}
      (same : r value value') (rest : Inserted h declared r entries entries') :
      Inserted h declared r ((name, value) :: entries) ((name, value') :: entries')
  | undeclared {name value : Value} {entries entries' : List (Value × Value)}
      (new : ∀ n, declared n → h.equal n name = false)
      (rest : Inserted h declared r entries entries') :
      Inserted h declared r entries ((name, value) :: entries')
  | absent {name : Value} {entries entries' : List (Value × Value)}
      (rest : Inserted h declared r entries entries') :
      Inserted h declared r entries ((name, .undefined) :: entries')

theorem lookup_cons (h : Heap) (key : Value) (e : Value × Value) (entries : List (Value × Value)) :
    h.lookup key (e :: entries) = if h.equal key e.1 then some e.2 else h.lookup key entries := by
  unfold Heap.lookup Heap.find?
  rw [List.find?_cons]
  cases h.equal key e.1 <;> rfl

theorem lookup_eq_none_of_countP {h : Heap} {key : Value} {entries : List (Value × Value)}
    (hc : (entries.map Prod.fst).countP (fun name => h.equal key name) = 0) :
    h.lookup key entries = none := by
  rw [List.countP_map, List.countP_eq_zero] at hc
  have hnone : h.find? key entries = none := List.find?_eq_none.mpr hc
  rw [Heap.lookup, hnone]
  rfl

section

variable {h : Heap} {declared : Value → Prop} {r q : Value → Value → Prop}

theorem Inserted.mono (hrq : ∀ x x', r x x' → q x x') {entries entries' : List (Value × Value)}
    (hi : Inserted h declared r entries entries') : Inserted h declared q entries entries' := by
  induction hi with
  | nil => exact .nil
  | kept same _ ih => exact .kept (hrq _ _ same) ih
  | undeclared new _ ih => exact .undeclared new ih
  | absent _ ih => exact .absent ih

/-- Under a declared name there is what was there before, if anything but undefined was. -/
theorem Inserted.lookup (hundefined : r .undefined .undefined)
    {entries entries' : List (Value × Value)} (hi : Inserted h declared r entries entries')
    {name : Value} (hn : declared name)
    (single : (entries'.map Prod.fst).countP (fun key => h.equal name key) ≤ 1) :
    r ((h.lookup name entries).getD .undefined) ((h.lookup name entries').getD .undefined) := by
  induction hi with
  | nil => exact hundefined
  | @kept key value value' entries entries' same rest ih =>
    rw [List.map_cons, List.countP_cons] at single
    rw [lookup_cons, lookup_cons]
    by_cases heq : h.equal name key = true
    · rw [if_pos heq, if_pos heq]
      exact same
    · rw [if_neg heq, if_neg heq]
      exact ih (by omega)
  | @undeclared key value entries entries' new rest ih =>
    rw [List.map_cons, List.countP_cons] at single
    rw [lookup_cons h name (key, value), new name hn]
    exact ih (by omega)
  | @absent key entries entries' rest ih =>
    rw [List.map_cons, List.countP_cons] at single
    have hrest := ih (by omega)
    rw [lookup_cons h name (key, .undefined)]
    by_cases heq : h.equal name key = true
    -- No other entry is under this name, so what was read before is undefined too.
    · rw [if_pos heq] at single
      have hnone : h.lookup name entries' = none := lookup_eq_none_of_countP (by omega)
      rw [hnone] at hrest
      rw [if_pos heq]
      exact hrest
    · rw [if_neg heq]
      exact hrest

end

/-! ## Values with entries put in -/

/-- How a value is made of others: entries are put into mappings, and the parts of lists, of tuples
and of mappings are related. Scalars, which are all that is no object, stay as they are, and so may
objects, such as decimal numbers, if what is read of them under declared names does. -/
inductive WidenedAt (h : Heap) (declared : Value → Prop) (r : Value → Value → Prop) :
    (v v' : Value) → Prop
  | scalar {v : Value} (scalar : v.isPlainObject = false) : WidenedAt h declared r v v
  | object {v : Value} (single : h.isArray v = false)
      (reads : ∀ name, declared name → ∃ read, h.property v name = .ok read ∧ r read read) :
      WidenedAt h declared r v v
  | list {items items' : List Value} (each : List.Forall₂ r items items') :
      WidenedAt h declared r (.list items) (.list items')
  | tuple {items items' : List Value} (each : List.Forall₂ r items items') :
      WidenedAt h declared r (.tuple items) (.tuple items')
  | mapping {entries entries' : List (Value × Value)}
      (inserted : Inserted h declared r entries entries')
      (keys : Keyed h (entries'.map Prod.fst)) :
      WidenedAt h declared r (.mapping entries) (.mapping entries')

/-- A value of scalars, lists, tuples and mappings, and one made from it by putting entries that
an open match does not look at into any of its mappings. Containers may be shared. -/
def Widened (h : Heap) (declared : Value → Prop) (v v' : Value) : Prop :=
  ∃ r : Value → Value → Prop,
    (∀ x x', r x x' → WidenedAt h declared r (h.resolve x) (h.resolve x')) ∧ r v v'

section

variable {h : Heap} {declared : Value → Prop} {r q : Value → Value → Prop}

theorem WidenedAt.mono (hrq : ∀ x x', r x x' → q x x') {v v' : Value}
    (hw : WidenedAt h declared r v v') : WidenedAt h declared q v v' := by
  cases hw with
  | scalar hv => exact .scalar hv
  | object single reads =>
    refine .object single fun name hn => ?_
    obtain ⟨read, hread, hrel⟩ := reads name hn
    exact ⟨read, hread, hrq read read hrel⟩
  | list each => exact .list (each.imp hrq)
  | tuple each => exact .tuple (each.imp hrq)
  | mapping inserted keys => exact .mapping (inserted.mono hrq) keys

theorem Widened.step {v v' : Value} (hw : Widened h declared v v') :
    WidenedAt h declared (Widened h declared) (h.resolve v) (h.resolve v') := by
  obtain ⟨r, hr, hv⟩ := hw
  exact (hr v v' hv).mono fun x x' hx => ⟨r, hr, hx⟩

/-- A value is widened if it is at its root and its parts are. -/
theorem Widened.ofStep {v v' : Value}
    (hw : WidenedAt h declared (Widened h declared) (h.resolve v) (h.resolve v')) :
    Widened h declared v v' :=
  ⟨fun x x' => WidenedAt h declared (Widened h declared) (h.resolve x) (h.resolve x'),
    fun _ _ hx => hx.mono fun _ _ hw => hw.step, hw⟩

theorem Widened.refl_scalar {v : Value} (hv : v.isPlainObject = false) :
    Widened h declared v v := by
  refine .ofStep ?_
  rw [resolve_of_flat hv]
  exact .scalar hv

theorem resembles_of_widenedAt (hashable : ∀ name, declared name → name.unhashable? = none)
    (hundefined : r .undefined .undefined) {v v' : Value} (hw : WidenedAt h declared r v v') :
    Resembles h declared r v v' := by
  cases hw with
  | scalar hv =>
    refine ⟨rfl, rfl, rfl, ?_, fun hobject => ?_⟩
    · rw [items?_of_flat hv]
      exact .none
    · cases hv.symm.trans hobject
  | object single reads =>
    refine ⟨rfl, rfl, rfl, ?_, fun _ _ name hn => ?_⟩
    · rw [Heap.isArray, Option.isSome_eq_false_iff, Option.isNone_iff_eq_none] at single
      rw [single]
      exact .none
    · obtain ⟨read, hread, hrel⟩ := reads name hn
      exact ⟨read, read, hread, hread, hrel⟩
  | list each | tuple each => exact ⟨rfl, rfl, rfl, .some each, fun _ hsingle => nomatch hsingle⟩
  | mapping inserted keys =>
    refine ⟨rfl, rfl, rfl, .none, fun _ _ name hn => ?_⟩
    have hlookup := inserted.lookup hundefined hn (keys.onRight name)
    exact ⟨_, _, property_of_entries rfl (hashable name hn),
      property_of_entries rfl (hashable name hn), hlookup⟩

theorem Widened.resembling (hashable : ∀ name, declared name → name.unhashable? = none) :
    Resembling h declared (Widened h declared) := by
  intro v v' hw
  have hroot : Resembles h declared (Widened h declared) (h.resolve v) (h.resolve v') :=
    resembles_of_widenedAt hashable (Widened.refl_scalar rfl) hw.step
  exact hroot.ofResolve

end

/-! ## Validations -/

/-- Where undeclared properties are allowed, entries under names that the schema does not declare,
and entries that are undefined, change nothing: a validation finds nothing either way, or a mismatch
with the same path and the same expected schema. -/
theorem validate_of_widened {world : World} {schema value value' options : Value} {s : Setting}
    (hs : world.setting options = .ok s) (allows : s.owner.closed = false)
    (h : WellFormed world.heap schema)
    (noPredicate : ∀ node, Within world.heap node schema →
      world.heap.kind? node ≠ some .predicate)
    (hashable : ∀ name, world.heap.Declares schema name → name.unhashable? = none)
    (hw : Widened world.heap (world.heap.Declares schema) value value') (t : Trace) :
    ((world.validate schema value options t).1 = .ok none ∧
        (world.validate schema value' options t).1 = .ok none) ∨
      ∃ m m', (world.validate schema value options t).1 = .ok (some m) ∧
        (world.validate schema value' options t).1 = .ok (some m') ∧
        m.path = m'.path ∧ m.expected = m'.expected := by
  obtain rfl := toWorld_of_setting hs
  have hvalidate (value : Value) :
      s.toWorld.validate schema value options t = s.validate schema value t := by
    rw [World.validate, hs, Validation.lift_ok, Validation.pure_bind]
  rw [hvalidate, hvalidate]
  exact validate_of_resembling allows (Widened.resembling hashable)
    ⟨h, noPredicate, fun _ => id⟩ hw t

/-! ## An example -/

/-- Two shared mappings. Of the second, an entry that is not in the first leads back to it. -/
def shelfWorld : World :=
  ⟨.ofCells #[.mapping [(.str "id", .int 1)],
      .mapping [(.str "next", .link 1), (.str "id", .int 1), (.str "tags", .undefined)]],
    fun _ _ => .answer .null, 0⟩

def shelfOptions : Value := .mapping [(.str "no_excess_props", .bool false)]

def bookSchema : Value :=
  .mapping [(.str "id", .str "number"), (.str "tags", .union [.str "undefined", .list []])]

def shelfSchema : Value := .list [.list [bookSchema]]

def shelf : Value := .list [.tuple [.link 0], .tuple []]

def widerShelf : Value := .list [.tuple [.link 1], .tuple []]

def IsBookName (name : Value) : Prop := name = .str "id" ∨ name = .str "tags"

theorem shelfSchema_unasked : Unasked shelfWorld.heap IsBookName shelfSchema := by
  have number : Unasked shelfWorld.heap IsBookName (.str "number") :=
    .ofKind (k := .atom _) rfl nofun nofun nofun
  have undefined : Unasked shelfWorld.heap IsBookName (.str "undefined") :=
    .ofKind (k := .atom _) rfl nofun nofun nofun
  have anything : Unasked shelfWorld.heap IsBookName (.list []) :=
    .ofKind (k := .array _) rfl nofun nofun nofun
  have tags : Unasked shelfWorld.heap IsBookName (.union [.str "undefined", .list []]) :=
    .ofKind (k := .union _) rfl nofun nofun
      (List.forall_mem_cons.mpr ⟨undefined, List.forall_mem_singleton.mpr anything⟩)
  have book : Unasked shelfWorld.heap IsBookName bookSchema := by
    refine .ofKind (k := .object _) rfl nofun (fun entries hentries => ?_)
      (List.forall_mem_cons.mpr ⟨number, List.forall_mem_singleton.mpr tags⟩)
    cases hentries
    exact List.forall_mem_cons.mpr ⟨.inl rfl, List.forall_mem_singleton.mpr (.inr rfl)⟩
  have row : Unasked shelfWorld.heap IsBookName (.list [bookSchema]) :=
    .ofKind (k := .array _) rfl nofun nofun (List.forall_mem_singleton.mpr book)
  exact .ofKind (k := .array _) rfl nofun nofun (List.forall_mem_singleton.mpr row)

theorem shelfSchema_hashable (name : Value) (hd : shelfWorld.heap.Declares shelfSchema name) :
    name.unhashable? = none := by
  rcases shelfSchema_unasked.names name hd with rfl | rfl <;> rfl

theorem shelf_widened :
    Widened shelfWorld.heap (shelfWorld.heap.Declares shelfSchema) shelf widerShelf := by
  have one : Widened shelfWorld.heap (shelfWorld.heap.Declares shelfSchema) (.int 1) (.int 1) :=
    .refl_scalar rfl
  have book : Widened shelfWorld.heap (shelfWorld.heap.Declares shelfSchema) (.link 0)
      (.link 1) := by
    refine .ofStep (.mapping (.undeclared (fun name hd => ?_) (.kept one (.absent .nil))) ?_)
    · rcases shelfSchema_unasked.names name hd with rfl | rfl <;> rfl
    · have distinct : ["next", "id", "tags"].Nodup := by decide
      exact keyed_texts shelfWorld.heap distinct
  exact .ofStep (.list (.cons (.ofStep (.tuple (.cons book .nil)))
    (.cons (.ofStep (.tuple .nil)) .nil)))

/-- One more property, which is of no use to the schema, and one that says that it is not there. -/
theorem validate_of_wider_shelf :
    shelfWorld.setting shelfOptions = .ok (shelfWorld.under openValidator) ∧
      openValidator.closed = false ∧ WellFormed shelfWorld.heap shelfSchema ∧
      (∀ node, Within shelfWorld.heap node shelfSchema →
        shelfWorld.heap.kind? node ≠ some .predicate) ∧
      (∀ name, shelfWorld.heap.Declares shelfSchema name → name.unhashable? = none) ∧
      Widened shelfWorld.heap (shelfWorld.heap.Declares shelfSchema) shelf widerShelf ∧
      (((shelfWorld.validate shelfSchema shelf shelfOptions .start).1 = .ok none ∧
          (shelfWorld.validate shelfSchema widerShelf shelfOptions .start).1 = .ok none) ∨
        ∃ m m', (shelfWorld.validate shelfSchema shelf shelfOptions .start).1 = .ok (some m) ∧
          (shelfWorld.validate shelfSchema widerShelf shelfOptions .start).1 = .ok (some m') ∧
          m.path = m'.path ∧ m.expected = m'.expected) :=
  ⟨rfl, rfl, shelfSchema_unasked.wellFormed, shelfSchema_unasked.noPredicate,
    shelfSchema_hashable, shelf_widened,
    validate_of_widened (s := shelfWorld.under openValidator) rfl rfl
      shelfSchema_unasked.wellFormed shelfSchema_unasked.noPredicate shelfSchema_hashable
      shelf_widened .start⟩

end Conform
