import Conform.Proofs.Schema.Congruence
import Conform.Proofs.Validation.Computation
/-!
# Matching by the kind of a schema

Matching a value against a schema is one rule for each kind of schema, where predicates are asked
and parts are matched by whatever the rule is given for it. Arrays, unions and objects all look
for the first of their parts that decides.
-/

set_option autoImplicit false

namespace Conform

/-- How a part of a schema is matched. -/
abbrev PartMatcher := (part value : Value) → Validation (Option Mismatch)

/-- The entries of an array schema with the items that they have to match, where their numbers
fit: anything fits no entries, and one entry stands for every item. -/
def pairing : (members items : List Value) → Option (List (Value × Value))
  | [], _ => some []
  | [member], items => some (items.map fun item => (member, item))
  | members, items => if members.length = items.length then some (members.zip items) else none

theorem pairing_of_several {members : List Value} (h : 2 ≤ members.length) (items : List Value) :
    pairing members items
      = if members.length = items.length then some (members.zip items) else none := by
  refine pairing.eq_3 members items ?_ ?_
  · rintro rfl
    simp at h
  · rintro member rfl
    simp at h

theorem mem_of_mem_pairing {members items : List Value} {pairs : List (Value × Value)}
    (h : pairing members items = some pairs) {pair : Value × Value} (hp : pair ∈ pairs) :
    pair.1 ∈ members ∧ pair.2 ∈ items := by
  rcases members with _ | ⟨member, _ | ⟨second, rest⟩⟩
  · cases h
    cases hp
  · cases h
    obtain ⟨item, hi, rfl⟩ := List.mem_map.mp hp
    exact ⟨List.mem_singleton.mpr rfl, hi⟩
  · rw [pairing_of_several (by simp)] at h
    split at h
    · cases h
      exact ⟨(List.of_mem_zip hp).1, (List.of_mem_zip hp).2⟩
    · cases h

theorem length_of_pairing {members items : List Value} {pairs : List (Value × Value)}
    (hne : members ≠ []) (h : pairing members items = some pairs) :
    pairs.length = items.length := by
  rcases members with _ | ⟨member, _ | ⟨second, rest⟩⟩
  · exact absurd rfl hne
  · cases h
    exact List.length_map _
  · rw [pairing_of_several (by simp)] at h
    split at h
    next hlength =>
      cases h
      rw [List.length_zip, hlength, Nat.min_self]
    next => cases h

/-- Each item is paired with the only entry, or with the entry at its own place. -/
theorem getElem?_of_pairing {members items : List Value} {pairs : List (Value × Value)}
    (h : pairing members items = some pairs) {i : Nat} {pair : Value × Value}
    (hp : pairs[i]? = some pair) :
    members[if members.length = 1 then 0 else i]? = some pair.1 ∧ items[i]? = some pair.2 := by
  rcases members with _ | ⟨member, _ | ⟨second, rest⟩⟩
  · cases h
    cases hp
  · cases h
    rw [List.getElem?_map] at hp
    obtain ⟨item, hitem, rfl⟩ := Option.map_eq_some_iff.mp hp
    exact ⟨rfl, hitem⟩
  · rw [pairing_of_several (by simp)] at h
    split at h
    · cases h
      rw [if_neg (by simp)]
      exact List.getElem?_zip_eq_some.mp hp
    · cases h

/-- Pairs of one item with entries in a relation. -/
def SameItem (r : Value → Value → Prop) (pair pair' : Value × Value) : Prop :=
  r pair.1 pair'.1 ∧ pair.2 = pair'.2

theorem zip_related {r : Value → Value → Prop} {members members' : List Value}
    (h : List.Forall₂ r members members') (items : List Value) :
    List.Forall₂ (SameItem r) (members.zip items) (members'.zip items) := by
  induction h generalizing items with
  | nil => exact .nil
  | cons hmember _ ih =>
    cases items with
    | nil => exact .nil
    | cons item items => exact .cons ⟨hmember, rfl⟩ (ih items)

/-- Entries in step are paired with the same items. -/
theorem pairing_related {r : Value → Value → Prop} {members members' : List Value}
    (h : List.Forall₂ r members members') (items : List Value) :
    Option.Rel (List.Forall₂ (SameItem r)) (pairing members items) (pairing members' items) := by
  cases h with
  | nil => exact .some .nil
  | cons hfirst hrest =>
    cases hrest with
    | nil =>
      refine .some ?_
      rw [List.forall₂_map_left_iff, List.forall₂_map_right_iff]
      exact List.forall₂_same.mpr fun item _ => ⟨hfirst, rfl⟩
    | cons hsecond hrest =>
      have hall := List.Forall₂.cons hfirst (.cons hsecond hrest)
      rw [pairing_of_several (by simp), pairing_of_several (by simp), hall.length_eq]
      split
      · exact .some (zip_related hall items)
      · exact .none

namespace Setting

/-- The entries of an array schema with the items that they have to match, if the value is an
array of a length that fits. -/
def pairs (s : Setting) (members : List Value) (value : Value) :
    Option (List (Value × Value)) :=
  (s.heap.items? value).bind (pairing members)

theorem pairs_related (s : Setting) {r : Value → Value → Prop} {members members' : List Value}
    (h : List.Forall₂ r members members') (value : Value) :
    Option.Rel (List.Forall₂ (SameItem r)) (s.pairs members value) (s.pairs members' value) := by
  unfold pairs
  cases s.heap.items? value with
  | none => exact .none
  | some items => exact pairing_related h items

/-- The parts that matching a value against a schema of a kind may go to, each with the value that
is matched against it. -/
def tasks (s : Setting) (value : Value) : Kind → List (Value × Value)
  | .array members => (s.pairs members value).getD []
  | .union members => members.map fun member => (member, value)
  | .object entries =>
    entries.filterMap fun e => (s.heap.property value e.1).toOption.map fun read => (e.2, read)
  | _ => []

theorem mem_parts_of_mem_tasks {s : Setting} {value : Value} {k : Kind} {task : Value × Value}
    (h : task ∈ s.tasks value k) : task.1 ∈ k.parts := by
  cases k with
  | array members =>
    cases hp : s.pairs members value with
    | none =>
      rw [tasks, hp] at h
      cases h
    | some pairs =>
      rw [tasks, hp, Option.getD_some] at h
      obtain ⟨items, -, hpairs⟩ := Option.bind_eq_some_iff.mp hp
      exact (mem_of_mem_pairing hpairs h).1
  | union members =>
    obtain ⟨member, hm, rfl⟩ := List.mem_map.mp h
    exact hm
  | object entries =>
    obtain ⟨e, he, htask⟩ := List.mem_filterMap.mp h
    obtain ⟨read, -, rfl⟩ := Option.map_eq_some_iff.mp htask
    exact Kind.mem_parts_object he
  | _ => cases h

theorem mem_tasks_of_read {s : Setting} {value read : Value} {entries : List (Value × Value)}
    {e : Value × Value} (he : e ∈ entries) (hr : s.heap.property value e.1 = .ok read) :
    (e.2, read) ∈ s.tasks value (.object entries) := by
  refine List.mem_filterMap.mpr ⟨e, he, ?_⟩
  rw [hr]
  rfl

/-- What a predicate answers to a value, with validations that it starts by `again`. -/
def ask (s : Setting) (again : Matcher) (w : Validator) (predicate value : Value) :
    Validation Bool :=
  match predicate with
  | .check c => Validation.lift (c.holds value)
  | .object _ (.host f) => Validation.lift (f.holds s.heap value)
  | .object _ (.function name className signature code _) =>
    callFunction s again w name className signature code value
  | _ => Validation.fail (.unsupportedNode predicate)

end Setting

/-- Matches items against the entries paired with them, up to the first that fails. -/
def matchPairing (w : Validator) (sub : PartMatcher) (pairs : List (Value × Value)) :
    Validation (Option Mismatch) :=
  pairs.zipIdx.findSomeM? fun (pair, i) =>
    Validation.descend w.lane (.int i) (sub pair.1 pair.2)

/-- Something if a value matches a member. -/
def tryMember (sub : PartMatcher) (value member : Value) : Validation (Option Unit) := do
  match ← sub member value with
  | none => pure (some ())
  | some _ => pure none

/-- The properties that entries declare, what is read under each matched one step further
down. -/
def declare (w : Validator) (sub : PartMatcher) (entries : List (Value × Value)) :
    List (Declared Validation Mismatch) :=
  entries.map fun e => ⟨e.1, fun read => Validation.descend w.lane e.1 (sub e.2 read)⟩

/-- Checks what is read under each declared name, up to the first that fails. -/
def visitEntries (s : Setting) (w : Validator) (sub : PartMatcher) (value : Value)
    (entries : List (Value × Value)) : Validation (Option Mismatch) :=
  entries.findSomeM? fun e => do
    Validation.descend w.lane e.1 (sub e.2 (← Validation.lift (s.heap.property value e.1)))

/-- Matches a value against a schema of a kind, which is reported as `known`. -/
def matchKind (s : Setting) (w : Validator) (known value : Value) (asked : Validation Bool)
    (sub : PartMatcher) : Kind → Validation (Option Mismatch)
  | .atom name => w.verdict known value (value.typeof == name)
  | .predicate => do w.verdict known value (← asked)
  | .pattern p => w.verdict known value ((value.text?.map p.search).getD false)
  | .array members =>
    match s.pairs members value with
    | none => some <$> w.refuse known value
    | some pairs => matchPairing w sub pairs
  | .union members => do
    let found ← members.findSomeM? (tryMember sub value)
    w.verdict known value found.isSome
  | .object entries => matchObject s w known value (declare w sub entries)

theorem visitDeclared_declare (s : Setting) (w : Validator) (sub : PartMatcher) (value : Value)
    (entries : List (Value × Value)) :
    visitDeclared (fun name => Validation.lift (s.heap.property value name)) (declare w sub entries)
      = visitEntries s w sub value entries := by
  rw [visitDeclared, declare, visitEntries]
  induction entries with
  | nil => rfl
  | cons e entries ih => rw [List.map_cons, List.findSomeM?_cons, List.findSomeM?_cons, ih]

theorem plain_of_not_refused {h : Heap} {value : Value}
    (hplain : ¬ (!value.isPlainObject || h.isArray value) = true) :
    value.isPlainObject = true ∧ h.isArray value = false := by
  rwa [Bool.or_eq_true, not_or, Bool.not_eq_true', Bool.not_eq_false, Bool.not_eq_true] at hplain

/-- Matching an object in terms of the entries that declare its properties. -/
theorem matchObject_declare (s : Setting) (w : Validator) (known value : Value)
    (sub : PartMatcher) (entries : List (Value × Value)) :
    matchObject s w known value (declare w sub entries)
      = if !value.isPlainObject || s.heap.isArray value then some <$> w.refuse known value
        else if w.closed && entries.length < (s.heap.ownNames value).length then
          some <$> w.refuse known value
        else visitEntries s w sub value entries >>= fun
          | some mismatch => pure (some mismatch)
          | none =>
            if w.closed && !(s.heap.ownNames value).all fun name =>
                entries.any fun e => s.heap.equal name e.1 then
              some <$> w.refuse known value
            else pure none := by
  have hdeclared (name : Value) :
      isDeclared s.heap (declare w sub entries) name
        = entries.any fun e => s.heap.equal name e.1 := by
    rw [isDeclared, declare, List.any_map]
    rfl
  have hlength : (declare w sub entries).length = entries.length := List.length_map ..
  unfold matchObject
  split
  · rfl
  · cases w.closed with
    | false =>
      simp only [Bool.false_eq_true, if_false, Bool.false_and, matchOpen]
      rw [visitDeclared_declare]
      refine (Validation.bind_pure (visitEntries s w sub value entries)).symm.trans ?_
      congr 1
      funext found
      cases found <;> rfl
    | true =>
      simp only [if_true, Bool.true_and, matchClosed, hlength, decide_eq_true_eq]
      split
      · rfl
      · rw [visitDeclared_declare]
        congr 1
        funext found
        cases found with
        | some mismatch => rfl
        | none =>
          simp only [funext hdeclared]
          cases (s.heap.ownNames value).all _ <;> rfl

/-! ## Where matching goes -/

/-- An item of a value, or what a property of it reads as. -/
def Heap.ReadFrom (h : Heap) (inner outer : Value) : Prop :=
  (∃ items, h.items? outer = some items ∧ inner ∈ items) ∨
    (outer.isPlainObject = true ∧ h.isArray outer = false ∧
      ∃ name, h.property outer name = .ok inner)

namespace Setting

/-- The parts that matching a value against a schema of a kind goes to, each with its value;
properties are read of objects alone. -/
def reached (s : Setting) (value : Value) : Kind → List (Value × Value)
  | .object entries =>
    if !value.isPlainObject || s.heap.isArray value then [] else s.tasks value (.object entries)
  | k => s.tasks value k

variable {s : Setting} {value : Value} {k : Kind} {task : Value × Value}

theorem mem_tasks_of_mem_reached (h : task ∈ s.reached value k) : task ∈ s.tasks value k := by
  cases k with
  | object entries =>
    rw [reached] at h
    split at h
    · cases h
    · exact h
  | _ => exact h

/-- Matching goes on to a part of the value, unless the schema is a union. -/
theorem readFrom_of_mem_reached (h : task ∈ s.reached value k) :
    s.heap.ReadFrom task.2 value ∨ ∃ members, k = .union members ∧ task.2 = value := by
  cases k with
  | array members =>
    replace h : task ∈ (s.pairs members value).getD [] := h
    cases hp : s.pairs members value with
    | none =>
      rw [hp] at h
      cases h
    | some pairs =>
      rw [hp] at h
      obtain ⟨items, hitems, hpairs⟩ := Option.bind_eq_some_iff.mp hp
      exact .inl (.inl ⟨items, hitems, (mem_of_mem_pairing hpairs h).2⟩)
  | union members =>
    obtain ⟨member, -, rfl⟩ := List.mem_map.mp h
    exact .inr ⟨members, rfl, rfl⟩
  | object entries =>
    rw [reached] at h
    split at h
    · cases h
    · next hplain =>
      obtain ⟨hobject, hsingle⟩ := plain_of_not_refused hplain
      obtain ⟨e, -, he⟩ := List.mem_filterMap.mp h
      obtain ⟨read, hread, rfl⟩ := Option.map_eq_some_iff.mp he
      refine .inl (.inr ⟨hobject, hsingle, e.1, ?_⟩)
      cases hr : s.heap.property value e.1 with
      | error failure =>
        rw [hr] at hread
        cases hread
      | ok read' =>
        rw [hr] at hread
        cases hread
        rfl
  | _ => cases h

end Setting

/-- Matches a value against a node of no kind, which is reported as `known`. -/
def matchKindless (w : Validator) (known node value : Value) : Validation (Option Mismatch) :=
  match node with
  | .object _ content => matchForeign w known content value
  | _ => Validation.fail (.unsupportedNode known)

/-! ## Each node by its kind -/

section

variable (s : Setting) (again : Matcher) (w : Validator)

theorem matchEach_eq (members : List Value) :
    matchEach s again w members
      = members.map fun member item => matchNode s again w member member item := by
  induction members with
  | nil => rfl
  | cons member members ih => rw [matchEach, ih, List.map_cons]

/-- For every item of an array of a length that fits there is a check. -/
theorem matchItems_eq (known : Value) (sub : PartMatcher) {members : List Value}
    (hne : members ≠ []) (items : List Value) {pairs : List (Value × Value)}
    (hp : pairing members items = some pairs) :
    matchItems w known (members.map sub) items = matchPairing w sub pairs := by
  have hlength := length_of_pairing hne hp
  refine Validation.findSomeM?_of_forall₂ (forall₂_of_getElem? (by simp [hlength]) ?_)
  intro i item pair hitem hpair
  rw [List.getElem?_zipIdx, Option.map_eq_some_iff] at hitem hpair
  obtain ⟨item, hitem, rfl⟩ := hitem
  obtain ⟨pair, hpair, rfl⟩ := hpair
  obtain ⟨hmember, hsame⟩ := getElem?_of_pairing hp hpair
  cases hsame.symm.trans hitem
  simp only [List.length_map, List.getElem?_map, Nat.zero_add, hmember, Option.map_some]

theorem matchAny_eq (members : List Value) (value : Value) :
    matchAny s again w members value
      = members.findSomeM?
          (tryMember (fun part value => matchNode s again w part part value) value)
        >>= fun found => pure found.isSome := by
  induction members with
  | nil => rfl
  | cons member members ih =>
    rw [matchAny, List.findSomeM?_cons, tryMember, Validation.bind_assoc, Validation.bind_assoc]
    congr 1
    funext outcome
    cases outcome with
    | none => rfl
    | some mismatch => exact ih

theorem declarations_eq (entries : List (Value × Value)) :
    declarations s again w entries
      = declare w (fun part value => matchNode s again w part part value) entries := by
  induction entries with
  | nil => rfl
  | cons e entries ih =>
    obtain ⟨name, schema⟩ := e
    rw [declarations, ih]
    rfl

theorem matchArray_eq (known value : Value) (asked : Validation Bool) (members : List Value) :
    matchArray s w known value (matchEach s again w members)
      = matchKind s w known value asked
          (fun part value => matchNode s again w part part value) (.array members) := by
  rw [matchArray, matchKind, Setting.pairs, matchEach_eq]
  cases s.heap.items? value with
  | none => rfl
  | some items =>
    rcases members with _ | ⟨member, _ | ⟨second, rest⟩⟩
    · rfl
    · exact matchItems_eq w known (fun part value => matchNode s again w part part value)
        (List.cons_ne_nil member []) items rfl
    · have hpairs := pairing_of_several
        (show 2 ≤ (member :: second :: rest).length by simp) items
      rw [Option.bind_some, hpairs]
      dsimp only
      rw [if_neg (by simp), List.length_map]
      by_cases hl : (member :: second :: rest).length = items.length
      · rw [if_neg (fun hmisfit => hmisfit.2 hl), if_pos hl]
        exact matchItems_eq w known (fun part value => matchNode s again w part part value)
          (List.cons_ne_nil member (second :: rest)) items (hpairs.trans (if_pos hl))
      · rw [if_pos ⟨by simp, hl⟩, if_neg hl]

/-- What matching does at a node that is of a kind. -/
theorem matchNode_of_kind {v : Value} {k : Kind} (hk : v.kind? = some k) (known value : Value) :
    matchNode s again w known v value
      = matchKind s w known value (s.ask again w v value)
          (fun part value => matchNode s again w part part value) k := by
  cases v with
  | list members | tuple members =>
    cases hk
    rw [matchNode]
    exact matchArray_eq s again w known value _ members
  | union members =>
    cases hk
    rw [matchNode, matchAny_eq, matchKind, Validation.bind_assoc]
    rfl
  | mapping entries =>
    cases hk
    rw [matchNode, declarations_eq]
    rfl
  | object handle content =>
    rw [matchNode]
    cases content with
    | set members | frozenSet members =>
      cases hk
      rw [matchContent, matchAny_eq, matchKind, Validation.bind_assoc]
      rfl
    | proxy entries =>
      cases hk
      rw [matchContent, declarations_eq]
      rfl
    | strMember _ name | host f | function name className signature code own | pattern p =>
      cases hk
      rfl
    | _ => cases hk
  | str name | check c =>
    cases hk
    rfl
  | _ => cases hk

/-- What matching does at a node that is of no kind and no link. -/
theorem matchNode_of_no_kind {v : Value} (hk : v.kind? = none) (hl : ∀ a, v ≠ .link a)
    (known value : Value) : matchNode s again w known v value = matchKindless w known v value := by
  cases v with
  | link a => exact absurd rfl (hl a)
  | object handle content => cases content <;> first | rfl | cases hk
  | _ => first | rfl | cases hk

end

end Conform
