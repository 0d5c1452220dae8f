import Conform.Proofs.Matching.Alike
import Conform.Proofs.Matching.Arrangement
/-!
# Matches that carry over

A schema under one validator transfers to a schema under another if every value that matches the
first matches the second, where nothing fails in either. Containers transfer if their parts do,
although the two runs stop at different parts. Main statement: `test_open_of_test`, that values
which pass under any options pass under options that allow undeclared properties.
-/

set_option autoImplicit false

namespace Conform

open Validation

/-- No predicate and no reading of a property fails in the course of matching a value against a
schema. -/
def Calm (s : Setting) (w : Validator) (schema value : Value) : Prop :=
  ∀ failure, ¬ Raises s w schema value failure

/-- A validator at work in a world. -/
abbrev World.under (world : World) (v : Validator) : Setting := ⟨world, v⟩

/-- What matches the first schema under the first validator matches the second under the second. -/
def Transfers (world : World) (v v' : Validator) (schema schema' : Value) : Prop :=
  ∀ value, Calm (world.under v) v schema value → Calm (world.under v') v' schema' value →
    Matches (world.under v) v schema value → Matches (world.under v') v' schema' value

/-! ## Parts that are gone to -/

section

variable {s : Setting} {w : Validator} {schema value : Value}

theorem Calm.item (hc : Calm s w schema value) {members : List Value}
    {pairs : List (Value × Value)} (hk : s.heap.kind? schema = some (.array members))
    (hp : s.pairs members value = some pairs) {i : Nat} {pair : Value × Value}
    (here : pairs[i]? = some pair)
    (earlier : ∀ j pair, j < i → pairs[j]? = some pair → Matches s w pair.1 pair.2) :
    Calm s w pair.1 pair.2 :=
  fun failure hr => hc failure (.part (.item i hk hp here earlier) hr)

theorem Calm.property (hc : Calm s w schema value) {entries : List (Value × Value)}
    (hk : s.heap.kind? schema = some (.object entries)) (admits : s.Admits w entries value)
    {i : Nat} {e : Value × Value} (here : entries[i]? = some e)
    (earlier : ∀ j e, j < i → entries[j]? = some e → Fits s w value e) {read : Value}
    (hread : s.heap.property value e.1 = .ok read) : Calm s w e.2 read :=
  fun failure hr => hc failure (.part (.property i hk admits here earlier hread) hr)

theorem Calm.member (hc : Calm s w schema value) {members : List Value}
    (hk : s.heap.kind? schema = some (.union members)) {i : Nat} {member : Value}
    (here : members[i]? = some member)
    (earlier : ∀ j m, j < i → members[j]? = some m → ¬ Matches s w m value) :
    Calm s w member value :=
  fun failure hr => hc failure (.member i hk here earlier hr)

end

/-! ## Containers -/

variable {world : World} {v v' : Validator} {schema schema' : Value}

theorem transfers_array {members members' : List Value}
    (hk : world.heap.kind? schema = some (.array members))
    (hk' : world.heap.kind? schema' = some (.array members'))
    (each : List.Forall₂ (Transfers world v v') members members') :
    Transfers world v v' schema schema' := by
  intro value hc hc' hm
  obtain ⟨pairs, hp, hall⟩ := (matches_array_iff (s := world.under v) hk).mp hm
  have hrelated := (world.under v).pairs_related each value
  rw [hp] at hrelated
  generalize hp' : (world.under v).pairs members' value = found at hrelated
  cases hrelated with
  | some hpairs =>
    refine (matches_array_iff (s := world.under v') hk').mpr ⟨_, hp', forall_mem_of_earlier ?_⟩
    intro i pair' here' before
    obtain ⟨pair, here, hpart, hitem⟩ := exists_getElem?_of_forall₂ hpairs.flip here'
    have hcalm := hc.item hk hp here fun j p _ hj => hall p (List.mem_of_getElem? hj)
    have hcalm' := hc'.item hk' hp' here' before
    have hmatch := hall pair (List.mem_of_getElem? here)
    rw [hitem] at hcalm hmatch
    exact hpart pair'.2 hcalm hcalm' hmatch

/-- The value may match different members: the first that it matches here, at the latest, it
matches there, unless it matches one before. -/
theorem transfers_union {members members' : List Value}
    (hk : world.heap.kind? schema = some (.union members))
    (hk' : world.heap.kind? schema' = some (.union members'))
    (each : List.Forall₂ (Transfers world v v') members members') :
    Transfers world v v' schema schema' := by
  intro value hc hc' hm
  obtain ⟨found, hfound, hmatch⟩ := (matches_union_iff (s := world.under v) hk).mp hm
  have hsome : ¬ ∀ member ∈ members, ¬ Matches (world.under v) v member value :=
    fun hnone => hnone found hfound hmatch
  obtain ⟨i, member, here, hfirst, before⟩ := exists_first_of_not_all members hsome
  obtain ⟨member', here', hmember⟩ := exists_getElem?_of_forall₂ each here
  refine (matches_union_iff (s := world.under v') hk').mpr ?_
  by_contra hnone
  have hnot (m : Value) (hmem : m ∈ members') : ¬ Matches (world.under v') v' m value :=
    fun h => hnone ⟨m, hmem, h⟩
  have hcalm := hc.member hk here before
  have hcalm' := hc'.member hk' here' fun j m _ hj => hnot m (List.mem_of_getElem? hj)
  have hmatch' := hmember value hcalm hcalm' (Classical.not_not.mp hfirst)
  exact hnot member' (List.mem_of_getElem? here') hmatch'

/-- The second validator must not forbid what the first one allows. -/
theorem transfers_object (looser : v'.closed = true → v.closed = true)
    {entries entries' : List (Value × Value)}
    (hk : world.heap.kind? schema = some (.object entries))
    (hk' : world.heap.kind? schema' = some (.object entries'))
    (each : List.Forall₂ (Kind.SameName (Transfers world v v')) entries entries') :
    Transfers world v v' schema schema' := by
  intro value hc hc' hm
  obtain ⟨admits, hfits, hdeclared⟩ := (matches_object_iff (s := world.under v) hk).mp hm
  have admits' : (world.under v').Admits v' entries' value :=
    ⟨admits.object, admits.notArray,
      fun hclosed => each.length_eq ▸ admits.room (looser hclosed)⟩
  refine (matches_object_iff (s := world.under v') hk').mpr ⟨admits', forall_mem_of_earlier ?_, ?_⟩
  · intro i e' here' before
    obtain ⟨e, here, hname, hpart⟩ := exists_getElem?_of_forall₂ each.flip here'
    obtain ⟨read, hread, hmatch⟩ := hfits e (List.mem_of_getElem? here)
    have hread' : world.heap.property value e'.1 = .ok read := hname ▸ hread
    have earlier (j : Nat) (x : Value × Value) (_ : j < i) (hj : entries[j]? = some x) :
        Fits (world.under v) v value x := hfits x (List.mem_of_getElem? hj)
    have hcalm := hc.property hk admits here earlier hread
    have hcalm' := hc'.property hk' admits' here' before hread'
    exact ⟨read, hread', hpart read hcalm hcalm' hmatch⟩
  · intro hclosed name hn hu
    exact hdeclared (looser hclosed) name hn ((undeclared_iff_of_forall₂ each).mpr hu)

theorem transfers_of_related (looser : v'.closed = true → v.closed = true) {k k' : Kind}
    (hk : world.heap.kind? schema = some k) (hk' : world.heap.kind? schema' = some k')
    (h : k.Related (Transfers world v v') k') : Transfers world v v' schema schema' := by
  cases h with
  | array each => exact transfers_array hk hk' each
  | union each => exact transfers_union hk hk' each
  | object each => exact transfers_object looser hk hk' each

/-! ## Tests -/

theorem exists_test_result {options value : Value}
    (hs : world.setting options = .ok (world.under v)) (h : WellFormed world.heap schema)
    (hc : Calm (world.under v) v schema value) (t : Trace) :
    ∃ passed, (world.test schema value options t).1 = .ok passed ∧
      (passed = true ↔ Matches (world.under v) v schema value) := by
  obtain ⟨found, u, hrun, hj⟩ := exists_validate_judged (s := world.under v) h hc t
  refine ⟨found.isNone, ?_, ?_⟩
  · rw [World.test_result, World.validate, hs, lift_ok, pure_bind, hrun]
    rfl
  · cases hj with
    | passed hm => exact ⟨fun _ => hm, fun _ => rfl⟩
    | refused walk =>
      have hnot : ¬ Matches (world.under v) v schema value := not_matches_of_failingWalk walk
      exact ⟨fun hfalse => (by cases hfalse), fun hm => absurd hm hnot⟩

theorem test_result_iff_matches {options value : Value}
    (hs : world.setting options = .ok (world.under v)) (h : WellFormed world.heap schema)
    (hc : Calm (world.under v) v schema value) (t : Trace) :
    (world.test schema value options t).1 = .ok true ↔ Matches (world.under v) v schema value := by
  obtain ⟨passed, hresult, hiff⟩ := exists_test_result hs h hc t
  simp [hresult, hiff]

/-! ## Options that allow more -/

/-- A predicate that gives the same answers under two validators, to all values that it answers
under both. -/
def Agrees (world : World) (v v' : Validator) (predicate : Value) : Prop :=
  ∀ value passed passed', (world.under v).Answers v predicate value (.ok passed) →
    (world.under v').Answers v' predicate value (.ok passed') → passed = passed'

theorem transfers_self (looser : v'.closed = true → v.closed = true)
    (h : WellFormed world.heap schema)
    (agree : ∀ node, Within world.heap node schema → world.heap.kind? node = some .predicate →
      Agrees world v v' node) : Transfers world v v' schema schema := by
  induction h with
  | @intro schema k kind parts ih =>
    have hrelated (shape : k.SameShape k) : k.Related (Transfers world v v') k := by
      refine Kind.related_of_sameShape shape fun i part part' hpart hpart' => ?_
      cases hpart.symm.trans hpart'
      have hmem := List.mem_of_getElem? hpart
      exact ih part hmem fun node hn => agree node (.inside kind hmem hn)
    cases k with
    | atom name =>
      intro value _ _ hm
      exact (matches_atom_iff (s := world.under v') kind).mpr ((matches_atom_iff kind).mp hm)
    | predicate =>
      intro value _ hc' hm
      have hpassed := (matches_predicate_iff kind).mp hm
      obtain ⟨answer, hanswer⟩ := exists_answer (world.under v') v' schema value
      cases answer with
      | error failure => exact absurd (.predicate kind hanswer) (hc' failure)
      | ok passed =>
        obtain rfl := agree schema .here kind value true passed hpassed hanswer
        exact (matches_predicate_iff (s := world.under v') kind).mpr hanswer
    | pattern p =>
      intro value _ _ hm
      exact (matches_pattern_iff (s := world.under v') kind).mpr ((matches_pattern_iff kind).mp hm)
    | array members => exact transfers_of_related looser kind kind (hrelated rfl)
    | union members => exact transfers_of_related looser kind kind (hrelated rfl)
    | object entries => exact transfers_of_related looser kind kind (hrelated rfl)

/-- What passes under any options, those that forbid undeclared properties included, passes under
options that allow them, if every predicate in the schema gives the same answers under both and no
predicate and no reading of a property fails. -/
theorem test_open_of_test {options openOptions value : Value}
    (hs : world.setting options = .ok (world.under v))
    (hs' : world.setting openOptions = .ok (world.under v')) (allows : v'.closed = false)
    (h : WellFormed world.heap schema)
    (agree : ∀ node, Within world.heap node schema → world.heap.kind? node = some .predicate →
      Agrees world v v' node)
    (hc : Calm (world.under v) v schema value) (hc' : Calm (world.under v') v' schema value)
    (t u : Trace) (passes : (world.test schema value options t).1 = .ok true) :
    (world.test schema value openOptions u).1 = .ok true := by
  have looser : v'.closed = true → v.closed = true := by
    intro hclosed
    rw [allows] at hclosed
    cases hclosed
  have hm := (test_result_iff_matches hs h hc t).mp passes
  have hm' := transfers_self looser h agree value hc hc' hm
  exact (test_result_iff_matches hs' h hc' u).mpr hm'

/-! ## An example -/

def orderWorld : World := ⟨.empty, fun _ _ => .answer .null, 0⟩

def closedValidator : Validator := ⟨⟨.bool true⟩, true, .own⟩

def openValidator : Validator := ⟨⟨.bool false⟩, false, .own⟩

def sizeEntry : Value × Value := (.str "size", .check .integer)

def noteEntry : Value × Value := (.str "note", .str "string")

/-- Orders have a size, and may have a note. -/
def orderSchema : Value :=
  .list [.union [.mapping [sizeEntry], .mapping [sizeEntry, noteEntry]]]

/-- It matches the second member, and also the first where undeclared properties are allowed. -/
def order : Value := .mapping [(.str "size", .int 2), (.str "note", .str "soon")]

def orders : Value := .list [order]

theorem orderSchema_wellFormed : WellFormed orderWorld.heap orderSchema := by
  have integer : WellFormed orderWorld.heap (.check .integer) := .intro (k := .predicate) rfl nofun
  have text : WellFormed orderWorld.heap (.str "string") := .intro (k := .atom _) rfl nofun
  have plain : WellFormed orderWorld.heap (.mapping [sizeEntry]) :=
    .intro (k := .object _) rfl (List.forall_mem_singleton.mpr integer)
  have noted : WellFormed orderWorld.heap (.mapping [sizeEntry, noteEntry]) :=
    .intro (k := .object _) rfl
      (List.forall_mem_cons.mpr ⟨integer, List.forall_mem_singleton.mpr text⟩)
  have either : WellFormed orderWorld.heap
      (.union [.mapping [sizeEntry], .mapping [sizeEntry, noteEntry]]) :=
    .intro (k := .union _) rfl
      (List.forall_mem_cons.mpr ⟨plain, List.forall_mem_singleton.mpr noted⟩)
  exact .intro (k := .array _) rfl (List.forall_mem_singleton.mpr either)

theorem agrees_check (world : World) (v v' : Validator) (c : Check) :
    Agrees world v v' (.check c) := by
  intro value passed passed' h h'
  have hholds := answers_unique h (answers_check (world.under v) v c value)
  have hholds' := answers_unique h' (answers_check (world.under v') v' c value)
  cases hholds.trans hholds'.symm
  rfl

theorem orderSchema_agrees (node : Value) (hn : Within orderWorld.heap node orderSchema) :
    orderWorld.heap.kind? node = some .predicate →
      Agrees orderWorld closedValidator openValidator node := by
  let P (node : Value) : Prop := orderWorld.heap.kind? node = some .predicate →
    Agrees orderWorld closedValidator openValidator node
  have integer : ∀ node, Within orderWorld.heap node (.check .integer) → P node :=
    forall_within_of_kind (k := .predicate) rfl (fun _ => agrees_check orderWorld _ _ _) nofun
  have text : ∀ node, Within orderWorld.heap node (.str "string") → P node :=
    forall_within_of_kind (k := .atom _) rfl nofun nofun
  have plain : ∀ node, Within orderWorld.heap node (.mapping [sizeEntry]) → P node :=
    forall_within_of_kind (k := .object _) rfl nofun (List.forall_mem_singleton.mpr integer)
  have noted : ∀ node, Within orderWorld.heap node (.mapping [sizeEntry, noteEntry]) → P node :=
    forall_within_of_kind (k := .object _) rfl nofun
      (List.forall_mem_cons.mpr ⟨integer, List.forall_mem_singleton.mpr text⟩)
  have either := forall_within_of_kind (h := orderWorld.heap) (p := P)
    (v := .union [.mapping [sizeEntry], .mapping [sizeEntry, noteEntry]]) (k := .union _) rfl
    (fun hkind => (by cases hkind))
    (List.forall_mem_cons.mpr ⟨plain, List.forall_mem_singleton.mpr noted⟩)
  exact forall_within_of_kind (p := P) (k := .array _) rfl (fun hkind => (by cases hkind))
    (List.forall_mem_singleton.mpr either) node hn

theorem size_calm (v : Validator) : Calm (orderWorld.under v) v (.check .integer) (.int 2) :=
  not_raises_check rfl

theorem text_calm (v : Validator) (text : String) :
    Calm (orderWorld.under v) v (.str "string") (.str text) :=
  not_raises_of_tasks (k := .atom _) rfl nofun nofun nofun

/-- Nothing fails at an order if nothing fails at its note. -/
theorem order_calm (v : Validator) {note : Value}
    (hnote : Calm (orderWorld.under v) v note (.str "soon")) :
    Calm (orderWorld.under v) v (.mapping [sizeEntry, (.str "note", note)]) order := by
  refine not_raises_of_tasks (k := .object _) rfl nofun (fun entries h => ?_)
    (List.forall_mem_cons.mpr ⟨size_calm v, List.forall_mem_singleton.mpr hnote⟩)
  cases h
  exact List.forall_mem_cons.mpr
    ⟨⟨.int 2, rfl⟩, List.forall_mem_singleton.mpr ⟨.str "soon", rfl⟩⟩

theorem orders_calm (v : Validator) : Calm (orderWorld.under v) v orderSchema orders := by
  have plain : Calm (orderWorld.under v) v (.mapping [sizeEntry]) order := by
    refine not_raises_of_tasks (k := .object _) rfl nofun (fun entries h => ?_)
      (List.forall_mem_singleton.mpr (size_calm v))
    cases h
    exact List.forall_mem_singleton.mpr ⟨.int 2, rfl⟩
  have noted : Calm (orderWorld.under v) v (.mapping [sizeEntry, noteEntry]) order :=
    order_calm v (text_calm v "soon")
  have either : Calm (orderWorld.under v) v
      (.union [.mapping [sizeEntry], .mapping [sizeEntry, noteEntry]]) order :=
    not_raises_of_tasks (k := .union _) rfl nofun nofun
      (List.forall_mem_cons.mpr ⟨plain, List.forall_mem_singleton.mpr noted⟩)
  exact not_raises_of_tasks (k := .array _) rfl nofun nofun (List.forall_mem_singleton.mpr either)

theorem test_open_orders :
    orderWorld.setting ticketOptions = .ok (orderWorld.under closedValidator) ∧
      orderWorld.setting .null = .ok (orderWorld.under openValidator) ∧
      openValidator.closed = false ∧ WellFormed orderWorld.heap orderSchema ∧
      (∀ node, Within orderWorld.heap node orderSchema →
        orderWorld.heap.kind? node = some .predicate →
          Agrees orderWorld closedValidator openValidator node) ∧
      Calm (orderWorld.under closedValidator) closedValidator orderSchema orders ∧
      Calm (orderWorld.under openValidator) openValidator orderSchema orders ∧
      (orderWorld.test orderSchema orders ticketOptions .start).1 = .ok true ∧
      (orderWorld.test orderSchema orders .null .start).1 = .ok true := by
  have hclosed : orderWorld.setting ticketOptions = .ok (orderWorld.under closedValidator) := rfl
  have hopen : orderWorld.setting .null = .ok (orderWorld.under openValidator) := rfl
  let s := orderWorld.under closedValidator
  have hrun : (matchWithin s 1 s.owner orderSchema orderSchema orders .start).1 = .ok none := rfl
  have passes : (orderWorld.test orderSchema orders ticketOptions .start).1 = .ok true :=
    World.test_of_matchWithin hclosed hrun
  exact ⟨hclosed, hopen, rfl, orderSchema_wellFormed, orderSchema_agrees,
    orders_calm closedValidator, orders_calm openValidator, passes,
    test_open_of_test hclosed hopen rfl orderSchema_wellFormed orderSchema_agrees
      (orders_calm closedValidator) (orders_calm openValidator) .start .start passes⟩

end Conform
