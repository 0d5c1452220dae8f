import Conform.Proofs.Validation.Place
/-!
# Which values match a schema

A value matches a schema by the meaning of the schema's kind, said without running anything:
whether predicates hold is the only thing that is asked. A failing walk leads through the schema
and the value together to the first node that fails by itself, and it never enters a union. Each
schema and value have at most one failing walk, and none if they match.
-/

set_option autoImplicit false

namespace Conform

/-! ## Predicates -/

/-- A predicate's answer to a value, or its failure, when the validations that it starts may go
as deep as they have to. -/
def Setting.Answers (s : Setting) (w : Validator) (predicate value : Value)
    (answer : Except Failure Bool) : Prop :=
  ∃ least, ∀ depth, least ≤ depth →
    ∀ t, (s.ask (matchWithin s depth) w predicate value t).1 = answer

section

variable {s : Setting} {w : Validator}

theorem answers_unique {predicate value : Value} {r r' : Except Failure Bool}
    (h : s.Answers w predicate value r) (h' : s.Answers w predicate value r') : r = r' := by
  obtain ⟨n, h⟩ := h
  obtain ⟨m, h'⟩ := h'
  exact (h (max n m) (Nat.le_max_left n m) Trace.start).symm.trans
    (h' (max n m) (Nat.le_max_right n m) Trace.start)

/-- Every predicate has an answer to every value; to never come to an end is a failure. -/
theorem exists_answer (s : Setting) (w : Validator) (predicate value : Value) :
    ∃ r, s.Answers w predicate value r := by
  by_cases h : ∃ d, (s.ask (matchWithin s d) w predicate value Trace.start).1 ≠ .error .endless
  · obtain ⟨d, hd⟩ := h
    refine ⟨(s.ask (matchWithin s d) w predicate value Trace.start).1, d, fun d' hle t => ?_⟩
    rw [ask_result s d' w predicate value t Trace.start, ask_of_le hle hd]
  · refine ⟨.error .endless, 0, fun d _ t => ?_⟩
    rw [ask_result s d w predicate value t Trace.start]
    exact Classical.not_not.mp fun hd => h ⟨d, hd⟩

theorem answers_check (s : Setting) (w : Validator) (c : Check) (value : Value) :
    s.Answers w (.check c) value (c.holds value) := by
  refine ⟨0, fun depth _ t => ?_⟩
  show (Validation.lift (c.holds value) t).1 = c.holds value
  cases c.holds value <;> rfl

end

/-! ## Matching -/

/-- Whether a value may have the properties that an object schema declares: it can have some, it
is no array and, where undeclared properties are forbidden, it owns no more than are declared. -/
structure Setting.Admits (s : Setting) (w : Validator) (entries : List (Value × Value))
    (value : Value) : Prop where
  object : value.isPlainObject = true
  notArray : s.heap.isArray value = false
  room : w.closed = true → (s.heap.ownNames value).length ≤ entries.length

/-- A name that equals none of those declared. -/
def Heap.Undeclared (h : Heap) (entries : List (Value × Value)) (name : Value) : Prop :=
  ∀ e ∈ entries, h.equal name e.1 = false

/-- A value matches a schema, under a validator's options. -/
inductive Matches (s : Setting) (w : Validator) : (schema value : Value) → Prop
  | atom {schema value : Value} {name : String} (kind : s.heap.kind? schema = some (.atom name))
      (tag : value.typeof = name) : Matches s w schema value
  | predicate {schema value : Value} (kind : s.heap.kind? schema = some .predicate)
      (holds : s.Answers w schema value (.ok true)) : Matches s w schema value
  | pattern {schema value : Value} {p : Pattern} {text : String}
      (kind : s.heap.kind? schema = some (.pattern p)) (string : value.text? = some text)
      (found : p.search text = true) : Matches s w schema value
  /-- No entries: any array. -/
  | anyArray {schema value : Value} {items : List Value}
      (kind : s.heap.kind? schema = some (.array [])) (array : s.heap.items? value = some items) :
      Matches s w schema value
  /-- One entry: every item matches it. -/
  | allItems {schema value member : Value} {items : List Value}
      (kind : s.heap.kind? schema = some (.array [member]))
      (array : s.heap.items? value = some items)
      (each : ∀ item ∈ items, Matches s w member item) : Matches s w schema value
  /-- Several entries: as many items, each matching the entry at its index. -/
  | eachItem {schema value : Value} {members items : List Value}
      (kind : s.heap.kind? schema = some (.array members)) (several : 2 ≤ members.length)
      (array : s.heap.items? value = some items) (length : items.length = members.length)
      (each : ∀ (i : Nat) (member item : Value), members[i]? = some member →
        items[i]? = some item → Matches s w member item) : Matches s w schema value
  | union {schema value member : Value} {members : List Value}
      (kind : s.heap.kind? schema = some (.union members)) (mem : member ∈ members)
      (one : Matches s w member value) : Matches s w schema value
  | object {schema value : Value} {entries : List (Value × Value)}
      (kind : s.heap.kind? schema = some (.object entries)) (admits : s.Admits w entries value)
      (readable : ∀ e ∈ entries, ∃ read, s.heap.property value e.1 = .ok read)
      (each : ∀ e ∈ entries, ∀ read, s.heap.property value e.1 = .ok read →
        Matches s w e.2 read)
      (declared : w.closed = true → ∀ name ∈ s.heap.ownNames value,
        ¬ s.heap.Undeclared entries name) : Matches s w schema value

/-- What is read under a declared name matches the schema declared for it. -/
def Fits (s : Setting) (w : Validator) (value : Value) (e : Value × Value) : Prop :=
  ∃ read, s.heap.property value e.1 = .ok read ∧ Matches s w e.2 read

section

variable {s : Setting} {w : Validator} {schema value : Value}

theorem matches_atom_iff {name : String} (hk : s.heap.kind? schema = some (.atom name)) :
    Matches s w schema value ↔ value.typeof = name := by
  refine ⟨fun h => ?_, .atom hk⟩
  cases h with
  | atom kind tag =>
    cases kind.symm.trans hk
    exact tag
  | _ => simp_all

theorem matches_predicate_iff (hk : s.heap.kind? schema = some .predicate) :
    Matches s w schema value ↔ s.Answers w schema value (.ok true) := by
  refine ⟨fun h => ?_, .predicate hk⟩
  cases h with
  | predicate kind holds => exact holds
  | _ => simp_all

theorem matches_pattern_iff {p : Pattern} (hk : s.heap.kind? schema = some (.pattern p)) :
    Matches s w schema value ↔ (value.text?.map p.search).getD false = true := by
  constructor
  · intro h
    cases h with
    | pattern kind string found =>
      cases kind.symm.trans hk
      rw [string, Option.map_some, Option.getD_some, found]
    | _ => simp_all
  · intro h
    cases ht : value.text? with
    | none => rw [ht] at h; cases h
    | some text =>
      rw [ht] at h
      exact .pattern hk ht h

theorem matches_array_iff {members : List Value}
    (hk : s.heap.kind? schema = some (.array members)) :
    Matches s w schema value ↔
      ∃ pairs, s.pairs members value = some pairs ∧ ∀ pair ∈ pairs, Matches s w pair.1 pair.2 := by
  constructor
  · intro h
    cases h with
    | anyArray kind array =>
      cases kind.symm.trans hk
      exact ⟨[], by rw [Setting.pairs, array]; rfl, fun pair hp => by cases hp⟩
    | @allItems _ _ member items kind array each =>
      cases kind.symm.trans hk
      refine ⟨items.map fun item => (member, item), by rw [Setting.pairs, array]; rfl, ?_⟩
      intro pair hp
      obtain ⟨item, hi, rfl⟩ := List.mem_map.mp hp
      exact each item hi
    | @eachItem _ _ members items kind several array length each =>
      cases kind.symm.trans hk
      refine ⟨members.zip items, ?_, fun pair hp => ?_⟩
      · rw [Setting.pairs, array, Option.bind_some, pairing_of_several several, if_pos length.symm]
      · obtain ⟨i, hi⟩ := List.mem_iff_getElem?.mp hp
        obtain ⟨hm, hitem⟩ := List.getElem?_zip_eq_some.mp hi
        exact each i pair.1 pair.2 hm hitem
    | _ => simp_all
  · rintro ⟨pairs, hpairs, each⟩
    obtain ⟨items, array, hpairs⟩ := Option.bind_eq_some_iff.mp hpairs
    rcases members with _ | ⟨member, _ | ⟨second, rest⟩⟩
    · exact .anyArray hk array
    · cases hpairs
      exact .allItems hk array fun item hi => each (member, item) (List.mem_map.mpr ⟨item, hi, rfl⟩)
    · rw [pairing_of_several (by simp)] at hpairs
      split at hpairs
      · next length =>
        cases hpairs
        refine .eachItem hk (by simp) array length.symm fun i member item hm hi => ?_
        exact each (member, item)
          (List.mem_of_getElem? (List.getElem?_zip_eq_some.mpr ⟨hm, hi⟩))
      · cases hpairs

theorem matches_union_iff {members : List Value}
    (hk : s.heap.kind? schema = some (.union members)) :
    Matches s w schema value ↔ ∃ member ∈ members, Matches s w member value := by
  refine ⟨fun h => ?_, fun ⟨member, hm, h⟩ => .union hk hm h⟩
  cases h with
  | union kind mem one =>
    cases kind.symm.trans hk
    exact ⟨_, mem, one⟩
  | _ => simp_all

theorem matches_object_iff {entries : List (Value × Value)}
    (hk : s.heap.kind? schema = some (.object entries)) :
    Matches s w schema value ↔ s.Admits w entries value ∧ (∀ e ∈ entries, Fits s w value e) ∧
      (w.closed = true → ∀ name ∈ s.heap.ownNames value, ¬ s.heap.Undeclared entries name) := by
  constructor
  · intro h
    cases h with
    | object kind admits readable each declared =>
      cases kind.symm.trans hk
      refine ⟨admits, fun e he => ?_, declared⟩
      obtain ⟨read, hr⟩ := readable e he
      exact ⟨read, hr, each e he read hr⟩
    | _ => simp_all
  · rintro ⟨admits, fits, declared⟩
    refine .object hk admits (fun e he => (fits e he).imp fun read h => h.1) ?_ declared
    intro e he read hr
    obtain ⟨read', hr', h⟩ := fits e he
    cases hr'.symm.trans hr
    exact h

end

end Conform
