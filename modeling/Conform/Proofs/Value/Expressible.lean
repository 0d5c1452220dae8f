import Conform.Proofs.Value.Json
/-!
# Values that have JSON

Containers may stand in several places, also inside themselves. A value has no JSON just if it is
absent, or if one comes from it to a container that contains itself, to something that JSON does
not know, or to an entry under a key that JSON does not know; what is absent inside is passed by.
Main statement: `json?_eq_none_iff`.
-/

set_option autoImplicit false

namespace Conform

/-! ## What can be reached -/

/-- Null, truth values, numbers and texts of the kinds that JSON knows; integers with too many digits
have no text in any of them. -/
inductive JsonScalar : Value → Prop
  | null : JsonScalar .null
  | bool (b : Bool) : JsonScalar (.bool b)
  | int (n : Int) (short : isOverlong n = false) : JsonScalar (.int n)
  | float (x : Double) : JsonScalar (.float x)
  | str (s : String) : JsonScalar (.str s)
  | double (handle : Option Nat) (x : Double) : JsonScalar (.object handle (.machine (.float64 x)))
  | intMember (handle : Option Nat) (member : Member) (n : Int) (short : isOverlong n = false) :
      JsonScalar (.object handle (.intMember member n))
  | strMember (handle : Option Nat) (member : Member) (s : String) :
      JsonScalar (.object handle (.strMember member s))

namespace Value

/-- A list, a tuple or a mapping. -/
def isContainer : Value → Bool
  | .list _ => true
  | .tuple _ => true
  | .mapping _ => true
  | _ => false

/-- An item of a list or a tuple, or the value of an entry of a mapping; absent ones apart. -/
inductive Holds : Value → Value → Prop
  | item {items : List Value} {part : Value} (mem : part ∈ items) (present : part ≠ .undefined) :
      Holds (.list items) part
  | place {items : List Value} {part : Value} (mem : part ∈ items) (present : part ≠ .undefined) :
      Holds (.tuple items) part
  | entry {entries : List (Value × Value)} {key part : Value} (mem : (key, part) ∈ entries)
      (present : part ≠ .undefined) : Holds (.mapping entries) part

/-- A leaf that JSON does not know, or a mapping with a key that JSON does not know. -/
inductive Flawed : Value → Prop
  | leaf {v : Value} (flat : v.isContainer = false) (odd : ¬ JsonScalar v) : Flawed v
  | key {entries : List (Value × Value)} {key part : Value} (mem : (key, part) ∈ entries)
      (present : part ≠ .undefined) (odd : ¬ JsonScalar key) : Flawed (.mapping entries)

end Value

namespace Heap

variable (h : Heap)

def Contains (whole part : Value) : Prop := (h.resolve whole).Holds part

/-- What can be come to through items and entries. -/
def Reaches : Value → Value → Prop := Relation.ReflTransGen h.Contains

/-- A value for which there is no JSON: a flawed one, or one inside itself. -/
def Inexpressible (v : Value) : Prop :=
  (h.resolve v).Flawed ∨ Relation.TransGen h.Contains v v

end Heap

/-- A value that JSON can hold to any depth; what is absent inside is left out or null. -/
inductive Expressible (h : Heap) : Value → Prop
  | absent : Expressible h .undefined
  | scalar {v : Value} (known : JsonScalar v) : Expressible h v
  | list {items : List Value} (each : ∀ item ∈ items, Expressible h item) :
      Expressible h (.list items)
  | tuple {items : List Value} (each : ∀ item ∈ items, Expressible h item) :
      Expressible h (.tuple items)
  | mapping {entries : List (Value × Value)}
      (named : ∀ e ∈ entries, e.2 ≠ .undefined → JsonScalar e.1)
      (each : ∀ e ∈ entries, Expressible h e.2) : Expressible h (.mapping entries)
  | link {a : Nat} (shared : Expressible h (h.cell a)) : Expressible h (.link a)

variable {h : Heap}

/-! ## One step -/

theorem integerText?_isSome_iff {n : Int} :
    (integerText? n).isSome = true ↔ isOverlong n = false := by
  rw [integerText?]
  cases isOverlong n <;> simp

theorem integerJson?_eq_none_iff {n : Int} : integerJson? n = none ↔ isOverlong n = true := by
  rw [integerJson?]
  cases isOverlong n <;> simp

theorem jsonKey?_isSome_iff {v : Value} : v.jsonKey?.isSome = true ↔ JsonScalar v := by
  constructor
  · intro hv
    cases v with
    | null => exact .null
    | bool b => exact .bool b
    | int n => exact .int n (integerText?_isSome_iff.mp hv)
    | float x => exact .float x
    | str s => exact .str s
    | object handle content =>
      cases content with
      | machine x =>
        cases x with
        | float64 x => exact .double handle x
        | _ => cases hv
      | intMember member n => exact .intMember handle member n (integerText?_isSome_iff.mp hv)
      | strMember member s => exact .strMember handle member s
      | _ => cases hv
    | _ => cases hv
  · intro hv
    cases hv with
    | int n short | intMember _ _ n short => exact integerText?_isSome_iff.mpr short
    | _ => rfl

theorem jsonKey?_eq_none_iff {v : Value} : v.jsonKey? = none ↔ ¬ JsonScalar v := by
  rw [← jsonKey?_isSome_iff]
  simp

theorem JsonScalar.flat {v : Value} (hv : JsonScalar v) : v.isContainer = false := by
  cases hv <;> rfl

theorem JsonScalar.parts_eq_nil {v : Value} (hv : JsonScalar v) {k : Kind}
    (hk : v.kind? = some k) : k.parts = [] := by
  cases hv <;> cases hk <;> rfl

theorem JsonScalar.resolve {v : Value} (hv : JsonScalar v) (h : Heap) : h.resolve v = v := by
  cases hv <;> rfl

namespace Value

section

variable {v part : Value} {items : List Value} {entries : List (Value × Value)}

theorem holds_list_iff : (Value.list items).Holds part ↔ part ∈ items ∧ part ≠ .undefined := by
  constructor
  · intro hpart
    cases hpart with
    | item mem present => exact ⟨mem, present⟩
  · exact fun ⟨mem, present⟩ => .item mem present

theorem holds_tuple_iff : (Value.tuple items).Holds part ↔ part ∈ items ∧ part ≠ .undefined := by
  constructor
  · intro hpart
    cases hpart with
    | place mem present => exact ⟨mem, present⟩
  · exact fun ⟨mem, present⟩ => .place mem present

theorem holds_mapping_iff :
    (Value.mapping entries).Holds part ↔ ∃ key, (key, part) ∈ entries ∧ part ≠ .undefined := by
  constructor
  · intro hpart
    cases hpart with
    | entry mem present => exact ⟨_, mem, present⟩
  · exact fun ⟨_, mem, present⟩ => .entry mem present

theorem not_holds_of_flat (flat : v.isContainer = false) : ¬ v.Holds part := by
  intro hpart
  cases hpart <;> cases flat

theorem not_flawed_list : ¬ (Value.list items).Flawed := by
  intro hflawed
  cases hflawed with
  | leaf flat => cases flat

theorem not_flawed_tuple : ¬ (Value.tuple items).Flawed := by
  intro hflawed
  cases hflawed with
  | leaf flat => cases flat

theorem flawed_mapping_iff :
    (Value.mapping entries).Flawed ↔
      ∃ e ∈ entries, e.2 ≠ .undefined ∧ ¬ JsonScalar e.1 := by
  constructor
  · intro hflawed
    cases hflawed with
    | leaf flat => cases flat
    | key mem present odd => exact ⟨_, mem, present, odd⟩
  · exact fun ⟨_, mem, present, odd⟩ => .key mem present odd

theorem flawed_iff_of_flat (flat : v.isContainer = false) : v.Flawed ↔ ¬ JsonScalar v := by
  constructor
  · intro hflawed
    cases hflawed with
    | leaf _ odd => exact odd
    | key => cases flat
  · exact .leaf flat

end

end Value

theorem Value.Holds.present {v part : Value} (hpart : v.Holds part) : part ≠ .undefined := by
  cases hpart with
  | item _ present | place _ present | entry _ present => exact present

theorem Value.Holds.part {v part : Value} (hpart : v.Holds part) :
    ∃ k, v.kind? = some k ∧ part ∈ k.parts := by
  cases hpart with
  | item mem _ | place mem _ => exact ⟨_, rfl, mem⟩
  | entry mem _ => exact ⟨_, rfl, Kind.mem_parts_object mem⟩

/-! ### JSON of one value -/

section

variable {onLink : Nat → Option Json}

theorem jsonWith_scalar {v : Value} (hv : JsonScalar v) : jsonWith h onLink v ≠ none := by
  cases hv with
  | int n short | intMember _ _ n short =>
    rw [← Bool.not_eq_true, ← integerJson?_eq_none_iff] at short
    exact short
  | _ => simp [jsonWith, Object.json?]

/-- An object that is no table has JSON just if it is a scalar. -/
theorem object_json?_eq_none_iff {handle : Option Nat} {content : Object}
    (tableless : (Value.object handle content).isTable = false) :
    content.json? h = none ↔ ¬ JsonScalar (.object handle content) := by
  constructor
  · intro hnone known
    have hsome : jsonWith h (fun _ => none) (.object handle content) ≠ none := jsonWith_scalar known
    exact hsome hnone
  · intro odd
    cases content with
    | machine x =>
      cases x with
      | float64 x => exact absurd (.double handle x) odd
      | _ => rfl
    | intMember member n =>
      refine integerJson?_eq_none_iff.mpr ?_
      by_contra hshort
      exact odd (.intMember handle member n (Bool.not_eq_true _ ▸ hshort))
    | strMember member s => exact absurd (.strMember handle member s) odd
    | series _ _ _ _ | frame _ _ => cases tableless
    | _ => rfl

theorem jsonItems_eq_none_iff {items : List Value} :
    jsonItems h onLink items = none ↔
      ∃ item ∈ items, item ≠ .undefined ∧ jsonWith h onLink item = none := by
  induction items with
  | nil => simp [jsonItems]
  | cons item items ih =>
    by_cases hitem : item = .undefined
    · subst hitem
      rw [jsonItems, Option.map_eq_none_iff, ih]
      simp
    · rw [jsonItems]
      · cases hfirst : jsonWith h onLink item with
        | none => simp [hitem, hfirst]
        | some j =>
          cases hrest : jsonItems h onLink items with
          | none => simpa [hfirst] using ih.mp hrest
          | some found =>
            have hno := mt ih.mpr (by simp [hrest])
            simpa [hfirst] using hno
      · exact hitem

theorem jsonMembers_eq_none_iff {entries : List (Value × Value)} :
    jsonMembers h onLink entries = none ↔
      ∃ e ∈ entries, e.2 ≠ .undefined ∧ (¬ JsonScalar e.1 ∨ jsonWith h onLink e.2 = none) := by
  simp only [← jsonKey?_eq_none_iff]
  induction entries with
  | nil => simp [jsonMembers]
  | cons e entries ih =>
    obtain ⟨key, v⟩ := e
    by_cases hv : v = .undefined
    · subst hv
      rw [jsonMembers, ih]
      simp
    · rw [jsonMembers]
      · cases hkey : key.jsonKey? with
        | none => simp [hv, hkey]
        | some name =>
          cases hfirst : jsonWith h onLink v with
          | none => simp [hv, hfirst]
          | some j =>
            cases hrest : jsonMembers h onLink entries with
            | none => simpa [hkey, hfirst] using ih.mp hrest
            | some found =>
              have hno := mt ih.mpr (by simp [hrest])
              simpa [hkey, hfirst] using hno
      · exact hv

theorem jsonWith_leaf_eq_none_iff {v : Value} (flat : v.isContainer = false)
    (unlinked : ∀ a, v ≠ .link a) (present : v ≠ .undefined) (tableless : v.isTable = false) :
    jsonWith h onLink v = none ↔ ¬ JsonScalar v := by
  have scalar (known : JsonScalar v) : jsonWith h onLink v = none ↔ ¬ JsonScalar v :=
    iff_of_false (jsonWith_scalar known) (not_not_intro known)
  cases v with
  | undefined => exact absurd rfl present
  | link a => exact absurd rfl (unlinked a)
  | list _ | tuple _ | mapping _ => cases flat
  | object handle content => exact object_json?_eq_none_iff tableless
  | check _ | union _ =>
    refine iff_of_true rfl fun known => ?_
    cases known
  | null => exact scalar .null
  | bool b => exact scalar (.bool b)
  | int n =>
    cases hlong : isOverlong n with
    | false => exact scalar (.int n hlong)
    | true =>
      refine iff_of_true (integerJson?_eq_none_iff.mpr hlong) fun known => ?_
      cases known with
      | int _ short => cases hlong.symm.trans short
  | float x => exact scalar (.float x)
  | str s => exact scalar (.str s)

/-- A value that is no link has no JSON just if it is flawed or something in it has none. -/
theorem jsonWith_eq_none_iff {v : Value} (unlinked : ∀ a, v ≠ .link a) (present : v ≠ .undefined)
    (tableless : v.isTable = false) :
    jsonWith h onLink v = none ↔
      v.Flawed ∨ ∃ part, v.Holds part ∧ jsonWith h onLink part = none := by
  cases flat : v.isContainer with
  | false =>
    rw [jsonWith_leaf_eq_none_iff flat unlinked present tableless, Value.flawed_iff_of_flat flat]
    simp [Value.not_holds_of_flat flat]
  | true =>
    cases v with
    | list items =>
      rw [jsonWith, Option.map_eq_none_iff, jsonItems_eq_none_iff]
      simp [Value.not_flawed_list, Value.holds_list_iff, and_assoc]
    | tuple items =>
      rw [jsonWith, Option.map_eq_none_iff, jsonItems_eq_none_iff]
      simp [Value.not_flawed_tuple, Value.holds_tuple_iff, and_assoc]
    | mapping entries =>
      rw [jsonWith, Option.map_eq_none_iff, jsonMembers_eq_none_iff, Value.flawed_mapping_iff]
      simp only [Value.holds_mapping_iff, and_or_left, exists_or]
      refine or_congr Iff.rfl ⟨?_, ?_⟩
      · rintro ⟨⟨key, part⟩, hmem, hkept, hnone⟩
        exact ⟨part, ⟨key, hmem, hkept⟩, hnone⟩
      · rintro ⟨part, ⟨key, hmem, hkept⟩, hnone⟩
        exact ⟨(key, part), hmem, hkept, hnone⟩
    | _ => cases flat

end

/-! ## A value inside open containers -/

theorem jsonInside_eq_none_iff {links : Nat} {opened : List Nat} {v : Value}
    (unlinked : ∀ a, v ≠ .link a) (present : v ≠ .undefined) (tableless : v.isTable = false) :
    h.jsonInside links opened v = none ↔
      v.Flawed ∨ ∃ part, v.Holds part ∧ h.jsonInside links opened part = none := by
  obtain ⟨onLink, _, heq, -⟩ := exists_inside_eq h links opened
  rw [heq]
  exact jsonWith_eq_none_iff unlinked present tableless

/-- A container that has something in it is one of the heap. -/
theorem lt_size_of_holds {a : Nat} {part : Value} (hpart : (h.cell a).Holds part) :
    a < h.size := by
  by_contra hbeyond
  have hcell : h.cell a = .list [] := by
    rw [Heap.cell, Array.getElem?_eq_none (Nat.le_of_not_lt hbeyond)]
  rw [hcell] at hpart
  cases hpart with
  | item mem _ => cases mem

theorem contains_of_holds {v part : Value} (unlinked : ∀ a, v ≠ .link a) (hpart : v.Holds part) :
    h.Contains v part := by
  rw [Heap.Contains, resolve_of_ne_link h unlinked]
  exact hpart

/-! ## Without JSON -/

/-- The containers that are open around a value: they are different ones of the heap, each leads to
the value, and with the links that may still be followed they make up one more than there are. -/
structure Opened (h : Heap) (links : Nat) (opened : List Nat) (v : Value) : Prop where
  distinct : opened.Nodup
  known : ∀ a ∈ opened, a < h.size
  leads : ∀ a ∈ opened, Relation.TransGen h.Contains (.link a) v
  room : links + opened.length = h.size + 1

namespace Opened

variable {links : Nat} {opened : List Nat} {v : Value}

theorem start (h : Heap) (v : Value) : Opened h (h.size + 1) [] v :=
  ⟨List.nodup_nil, by simp, by simp, rfl⟩

theorem part {w : Value} (hv : Opened h links opened v) (hpart : h.Contains v w) :
    Opened h links opened w :=
  ⟨hv.distinct, hv.known, fun a ha => (hv.leads a ha).tail hpart, hv.room⟩

/-- The links that may be followed never run out. -/
theorem exists_links (hv : Opened h links opened v) : ∃ n, links = n + 1 := by
  have hsubset : opened ⊆ List.range h.size := fun a ha => List.mem_range.mpr (hv.known a ha)
  have hlength : opened.length ≤ h.size := by
    simpa using hv.distinct.length_le_of_subset hsubset
  have hroom := hv.room
  exact ⟨links - 1, by omega⟩

theorem open_link {a : Nat} {w : Value} (hv : Opened h (links + 1) opened (.link a))
    (hnew : a ∉ opened) (hpart : h.Contains (.link a) w) : Opened h links (a :: opened) w := by
  have hroom := hv.room
  refine ⟨List.nodup_cons.mpr ⟨hnew, hv.distinct⟩, ?_, ?_, ?_⟩
  · exact List.forall_mem_cons.mpr ⟨lt_size_of_holds hpart, hv.known⟩
  · exact List.forall_mem_cons.mpr
      ⟨.single hpart, fun b hb => (hv.leads b hb).tail hpart⟩
  · rw [List.length_cons]
    omega

end Opened

/-- No table can be come to. -/
def Tableless (h : Heap) (v : Value) : Prop := ∀ w, h.Reaches v w → w.isTable = false

theorem Tableless.part {v part : Value} (hv : Tableless h v) (hpart : h.Contains v part) :
    Tableless h part :=
  fun w hw => hv w (.head hpart hw)

theorem isTable_cell (h : Heap) (a : Nat) : (h.cell a).isTable = false := by
  rcases cell_cases h a with ⟨items, ha⟩ | ⟨entries, ha⟩ <;> rw [ha] <;> rfl

/-- By induction on the links that may be followed and, inside, on the value. A link to an open
container makes a container that contains itself. -/
theorem exists_inexpressible_of_none {links : Nat} {opened : List Nat} {v : Value}
    (hv : Opened h links opened v) (tableless : Tableless h v) (present : v ≠ .undefined)
    (hnone : h.jsonInside links opened v = none) : ∃ w, h.Reaches v w ∧ h.Inexpressible w := by
  induction links generalizing opened v with
  | zero =>
    obtain ⟨n, hn⟩ := hv.exists_links
    cases hn
  | succ links ih =>
    induction v using Value.kind_induction with
    | step v ihv =>
      rcases v.link_or with ⟨a, rfl⟩ | unlinked
      · by_cases hopen : a ∈ opened
        · exact ⟨.link a, .refl, .inr (hv.leads a hopen)⟩
        · have hcell : h.jsonInside links (a :: opened) (h.cell a) = none := by
            simpa [Heap.jsonInside, jsonWith, hopen] using hnone
          rcases (jsonInside_eq_none_iff (cell_ne_link h a) (cell_ne_undefined h a)
            (isTable_cell h a)).mp hcell with hflawed | ⟨part, hpart, hpartNone⟩
          · exact ⟨.link a, .refl, .inl hflawed⟩
          · have hinside : h.Contains (.link a) part := hpart
            obtain ⟨w, hw, hbad⟩ := ih (hv.open_link hopen hinside) (tableless.part hinside)
              hpart.present hpartNone
            exact ⟨w, .head hinside hw, hbad⟩
      · rcases (jsonInside_eq_none_iff unlinked present (tableless v .refl)).mp hnone with
          hflawed | ⟨part, hpart, hpartNone⟩
        · rw [← resolve_of_ne_link h unlinked] at hflawed
          exact ⟨v, .refl, .inl hflawed⟩
        · have hinside : h.Contains v part := contains_of_holds unlinked hpart
          obtain ⟨k, hk, hmem⟩ := hpart.part
          obtain ⟨w, hw, hbad⟩ := ihv k hk part hmem (hv.part hinside) (tableless.part hinside)
            hpart.present hpartNone
          exact ⟨w, .head hinside hw, hbad⟩

/-! ## With JSON -/

theorem expressible_of_parts {v : Value} (unlinked : ∀ a, v ≠ .link a) (sound : ¬ v.Flawed)
    (each : ∀ part, v.Holds part → Expressible h part) : Expressible h v := by
  have leaf (flat : v.isContainer = false) : Expressible h v := by
    by_contra hnot
    exact sound (.leaf flat fun known => hnot (.scalar known))
  have present {part : Value} (hpart : part ≠ .undefined → Expressible h part) :
      Expressible h part := by
    by_cases habsent : part = .undefined
    · exact habsent ▸ .absent
    · exact hpart habsent
  cases v with
  | link a => exact absurd rfl (unlinked a)
  | list items =>
    exact .list fun item hmem => present fun hitem => each item (.item hmem hitem)
  | tuple items =>
    exact .tuple fun item hmem => present fun hitem => each item (.place hmem hitem)
  | mapping entries =>
    refine .mapping (fun e hmem hkept => ?_)
      (fun e hmem => present fun hkept => each e.2 (.entry hmem hkept))
    by_contra odd
    exact sound (.key hmem hkept odd)
  | _ => exact leaf rfl

/-- By induction on the value, for links that lead to what JSON can hold. -/
theorem expressible_of_links {links : Nat} {opened : List Nat} {v : Value}
    (follow : ∀ a, Tableless h (.link a) → h.jsonInside links opened (.link a) ≠ none →
      Expressible h (.link a))
    (tableless : Tableless h v) (hsome : h.jsonInside links opened v ≠ none) : Expressible h v := by
  induction v using Value.kind_induction with
  | step v ih =>
    rcases v.link_or with ⟨a, rfl⟩ | unlinked
    · exact follow a tableless hsome
    · by_cases habsent : v = .undefined
      · exact habsent ▸ .absent
      · have hstep := mt (jsonInside_eq_none_iff unlinked habsent (tableless v .refl)).mpr hsome
        obtain ⟨sound, parts⟩ := not_or.mp hstep
        refine expressible_of_parts unlinked sound fun part hpart => ?_
        obtain ⟨k, hk, hmem⟩ := hpart.part
        refine ih k hk part hmem (tableless.part (contains_of_holds unlinked hpart)) ?_
        exact fun hnone => parts ⟨part, hpart, hnone⟩

theorem Tableless.cell {a : Nat} (ha : Tableless h (.link a)) : Tableless h (h.cell a) := by
  intro w hw
  rcases Relation.ReflTransGen.cases_head hw with rfl | ⟨part, hpart, hrest⟩
  · exact isTable_cell h a
  · have hinside : h.Contains (.link a) part := by
      rwa [Heap.Contains, resolve_cell] at hpart
    exact ha w (.head hinside hrest)

theorem expressible_of_some {links : Nat} {opened : List Nat} {v : Value}
    (tableless : Tableless h v) (hsome : h.jsonInside links opened v ≠ none) : Expressible h v := by
  induction links generalizing opened v with
  | zero => exact expressible_of_links (fun a _ ha => absurd rfl ha) tableless hsome
  | succ links ih =>
    refine expressible_of_links (fun a hlink ha => ?_) tableless hsome
    rw [Heap.jsonInside, jsonWith] at ha
    by_cases hopen : opened.contains a = true
    · exact absurd (if_pos hopen) ha
    · rw [if_neg hopen] at ha
      exact .link (ih hlink.cell ha)

/-! ### What JSON can hold is neither flawed nor inside itself -/

namespace Expressible

variable {v : Value}

theorem of_holds {part : Value} (hv : Expressible h v) (hpart : (h.resolve v).Holds part) :
    Expressible h part := by
  induction hv with
  | absent => exact absurd hpart (Value.not_holds_of_flat rfl)
  | scalar known =>
    rw [known.resolve h] at hpart
    exact absurd hpart (Value.not_holds_of_flat known.flat)
  | list each => exact each part (Value.holds_list_iff.mp hpart).1
  | tuple each => exact each part (Value.holds_tuple_iff.mp hpart).1
  | mapping _ each =>
    obtain ⟨_, mem, -⟩ := Value.holds_mapping_iff.mp hpart
    exact each _ mem
  | @link a _ ih =>
    refine ih ?_
    rw [resolve_cell]
    exact hpart

theorem of_reaches {w : Value} (hv : Expressible h v) (hw : h.Reaches v w) : Expressible h w := by
  induction hw with
  | refl => exact hv
  | tail _ hpart ih => exact ih.of_holds hpart

theorem tableless (hv : Expressible h v) : Tableless h v := by
  intro w hw
  have hexpressible : Expressible h w := hv.of_reaches hw
  cases hexpressible with
  | scalar known => cases known <;> rfl
  | _ => rfl

theorem acyclic (hv : Expressible h v) : h.Acyclic v := by
  induction hv with
  | absent =>
    refine acyclic_of_parts fun k hk => ?_
    cases hk
  | scalar known =>
    refine acyclic_of_parts fun k hk part hp => ?_
    rw [Heap.kind?, known.resolve h] at hk
    rw [known.parts_eq_nil hk] at hp
    cases hp
  | list _ ih | tuple _ ih =>
    refine acyclic_of_parts fun k hk part hp => ?_
    cases hk
    exact ih part hp
  | mapping _ _ ih =>
    refine acyclic_of_parts fun k hk part hp => ?_
    cases hk
    obtain ⟨e, he, rfl⟩ := List.mem_map.mp hp
    exact ih e he
  | @link a _ ih => exact acyclic_of_parts fun k hk part hp => ih.part (kind?_link h a ▸ hk) hp

theorem not_flawed (hv : Expressible h v) (present : v ≠ .undefined) : ¬ (h.resolve v).Flawed := by
  induction hv with
  | absent => exact absurd rfl present
  | scalar known =>
    rw [known.resolve h, Value.flawed_iff_of_flat known.flat]
    exact not_not_intro known
  | list _ => exact Value.not_flawed_list
  | tuple _ => exact Value.not_flawed_tuple
  | mapping named _ =>
    intro hflawed
    obtain ⟨e, hmem, hkept, odd⟩ := Value.flawed_mapping_iff.mp hflawed
    exact odd (named e hmem hkept)
  | @link a _ ih =>
    have hcell := ih (cell_ne_undefined h a)
    rwa [resolve_cell] at hcell

/-- What is in a value is one of the parts of which an acyclic one has no endless chain. -/
theorem not_cyclic (hv : Expressible h v) : ¬ Relation.TransGen h.Contains v v := by
  have partOf {whole part : Value} (hpart : h.Contains whole part) : h.PartOf part whole := by
    obtain ⟨k, hk, hmem⟩ := Value.Holds.part hpart
    exact ⟨k, hk, hmem⟩
  intro hcycle
  have hback : Relation.TransGen h.PartOf v v := by
    rw [← Relation.transGen_swap]
    exact Relation.TransGen.mono (fun _ _ => partOf) v v hcycle
  have hacc : Acc (Relation.TransGen h.PartOf) v := Acc.transGen hv.acyclic
  exact not_rel_self_of_acc hacc hback

theorem not_inexpressible {w : Value} (hv : Expressible h v) (present : v ≠ .undefined)
    (hw : h.Reaches v w) : ¬ h.Inexpressible w := by
  have hpresent : w ≠ .undefined := by
    rcases Relation.ReflTransGen.cases_tail hw with rfl | ⟨_, -, hpart⟩
    · exact present
    · exact Value.Holds.present hpart
  rintro (hflawed | hcycle)
  · exact (hv.of_reaches hw).not_flawed hpresent hflawed
  · exact (hv.of_reaches hw).not_cyclic hcycle

end Expressible

/-! ## Any value -/

theorem json?_eq_none_iff {v : Value} (tableless : Tableless h v) :
    h.json? v = none ↔ v = .undefined ∨ ∃ w, h.Reaches v w ∧ h.Inexpressible w := by
  rw [json?_eq]
  by_cases habsent : v = .undefined
  · subst habsent
    exact iff_of_true rfl (.inl rfl)
  · constructor
    · exact fun hnone => .inr (exists_inexpressible_of_none (.start h v) tableless habsent hnone)
    · rintro (hundefined | ⟨w, hw, hbad⟩)
      · exact absurd hundefined habsent
      · by_contra hsome
        exact (expressible_of_some tableless hsome).not_inexpressible habsent hw hbad

end Conform
