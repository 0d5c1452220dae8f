import Conform.Proofs.Matching.Transfer
/-!
# Schemas in a context

A context is a schema with a hole in it. A wider schema in the hole makes a wider schema of the
whole, and so it does in the containers that are shared. Main statement: `test_mono_in_context`.
-/

set_option autoImplicit false

namespace Conform

open Validation

/-! ## Contexts -/

/-- The containers whose parts stand in a row. -/
inductive Row where
  | list
  | tuple
  | union
  | set (handle : Option Nat)
  | frozenSet (handle : Option Nat)

/-- The containers whose parts stand under names. -/
inductive Dictionary where
  | mapping
  | proxy (handle : Option Nat)

namespace Row

def of : Row → List Value → Value
  | .list, members => .list members
  | .tuple, members => .tuple members
  | .union, members => .union members
  | .set handle, members => .object handle (.set members)
  | .frozenSet handle, members => .object handle (.frozenSet members)

/-- The kind that a row has, whatever its members are. -/
def kind : Row → List Value → Kind
  | .list, members => .array members
  | .tuple, members => .array members
  | .union, members => .union members
  | .set _, members => .union members
  | .frozenSet _, members => .union members

@[simp] theorem parts_kind (row : Row) (members : List Value) :
    (row.kind members).parts = members := by
  cases row <;> rfl

theorem kind?_of (h : Heap) (row : Row) (members : List Value) :
    h.kind? (row.of members) = some (row.kind members) := by
  cases row <;> rfl

theorem related_kind (row : Row) {r : Value → Value → Prop} {members members' : List Value}
    (each : List.Forall₂ r members members') :
    (row.kind members).Related r (row.kind members') := by
  cases row with
  | list | tuple => exact .array each
  | union | set _ | frozenSet _ => exact .union each

end Row

namespace Dictionary

def of : Dictionary → List (Value × Value) → Value
  | .mapping, entries => .mapping entries
  | .proxy handle, entries => .object handle (.proxy entries)

theorem kind?_of (h : Heap) (names : Dictionary) (entries : List (Value × Value)) :
    h.kind? (names.of entries) = some (.object entries) := by
  cases names <;> rfl

end Dictionary

/-- A schema with a hole at one place, at any depth. -/
inductive Context where
  | hole
  | member (row : Row) (before : List Value) (inner : Context) (after : List Value)
  | entry (names : Dictionary) (before : List (Value × Value)) (name : Value) (inner : Context)
      (after : List (Value × Value))

namespace Context

/-- The schema with a part in the hole. -/
def fill : Context → Value → Value
  | .hole, part => part
  | .member row before inner after, part => row.of (before ++ inner.fill part :: after)
  | .entry names before name inner after, part =>
    names.of (before ++ (name, inner.fill part) :: after)

/-- What stands around the hole is well formed. -/
def WellFormed (h : Heap) : Context → Prop
  | .hole => True
  | .member _ before inner after =>
    inner.WellFormed h ∧ ∀ part ∈ before ++ after, Conform.WellFormed h part
  | .entry _ before _ inner after =>
    inner.WellFormed h ∧ ∀ e ∈ before ++ after, Conform.WellFormed h e.2

theorem wellFormed_fill {h : Heap} (context : Context) {part : Value}
    (hp : Conform.WellFormed h part) (hc : context.WellFormed h) :
    Conform.WellFormed h (context.fill part) := by
  induction context with
  | hole => exact hp
  | member row before inner after ih =>
    obtain ⟨hinner, haround⟩ := hc
    refine .intro (row.kind?_of h _) ?_
    rw [Row.parts_kind, List.forall_mem_append, List.forall_mem_cons]
    obtain ⟨hbefore, hafter⟩ := List.forall_mem_append.mp haround
    exact ⟨hbefore, ih hinner, hafter⟩
  | entry names before name inner after ih =>
    obtain ⟨hinner, haround⟩ := hc
    refine .intro (names.kind?_of h _) ?_
    rw [Kind.parts, List.forall_mem_map, List.forall_mem_append, List.forall_mem_cons]
    obtain ⟨hbefore, hafter⟩ := List.forall_mem_append.mp haround
    exact ⟨hbefore, ih hinner, hafter⟩

end Context

/-! ## One part in the place of another -/

/-- The second schema has `part'` at places where the first has `part`, shared containers that
differ in nothing else included. -/
abbrev Replaced (h : Heap) (part part' : Value) : Value → Value → Prop :=
  Congruent h fun v v' => v = part ∧ v' = part'

theorem Replaced.symm {h : Heap} {part part' v v' : Value} (hr : Replaced h part part' v v') :
    Replaced h part' part v' v := by
  refine Congruent.le (r := fun v v' => Replaced h part' part v' v) .same ?_ ?_ hr
  · exact fun _ _ hchange => .changed ⟨hchange.2, hchange.1⟩
  · exact fun _ _ _ _ hk hk' hrelated => .ofRelated hk' hk hrelated.symm

theorem forall₂_around {α : Type} {r : α → α → Prop} (refl : ∀ a, r a a) (before after : List α)
    {a a' : α} (h : r a a') : List.Forall₂ r (before ++ a :: after) (before ++ a' :: after) := by
  have same (l : List α) : List.Forall₂ r l l := List.forall₂_same.mpr fun a _ => refl a
  exact List.rel_append (same before) (.cons h (same after))

theorem replaced_fill (h : Heap) (part part' : Value) (context : Context) :
    Replaced h part part' (context.fill part) (context.fill part') := by
  induction context with
  | hole => exact .changed ⟨rfl, rfl⟩
  | member row before inner after ih =>
    have each := forall₂_around (Congruent.same (h := h)) before after ih
    exact .ofRelated (row.kind?_of h _) (row.kind?_of h _) (row.related_kind each)
  | entry names before name inner after ih =>
    have here : Kind.SameName (Replaced h part part') (name, inner.fill part)
        (name, inner.fill part') := ⟨rfl, ih⟩
    have each := forall₂_around (fun e => ⟨rfl, .same e.2⟩) before after here
    exact .ofRelated (names.kind?_of h _) (names.kind?_of h _) (.object each)

/-! ## Wider schemas -/

section

variable {world : World} {v : Validator} {options part part' schema schema' : Value}

theorem transfers_of_replaced (h : Transfers world v v part part')
    (hr : Replaced world.heap part part' schema schema') : Transfers world v v schema schema' := by
  refine hr.le (fun _ _ _ _ hm => hm) ?_ fun _ _ _ _ hk hk' => transfers_of_related id hk hk'
  rintro _ _ ⟨rfl, rfl⟩
  exact h

/-- All values that pass the first schema, nothing failing in either, pass the second. -/
def Covers (world : World) (v : Validator) (options schema schema' : Value) : Prop :=
  ∀ value, Calm (world.under v) v schema value → Calm (world.under v) v schema' value →
    ∀ t u, (world.test schema value options t).1 = .ok true →
      (world.test schema' value options u).1 = .ok true

theorem covers_iff_transfers (hs : world.setting options = .ok (world.under v))
    (h : WellFormed world.heap schema) (h' : WellFormed world.heap schema') :
    Covers world v options schema schema' ↔ Transfers world v v schema schema' := by
  constructor
  · intro covers value hc hc' hm
    have passes := (test_result_iff_matches hs h hc .start).mpr hm
    exact (test_result_iff_matches hs h' hc' .start).mp (covers value hc hc' .start .start passes)
  · intro transfers value hc hc' t u passes
    have hm := (test_result_iff_matches hs h hc t).mp passes
    exact (test_result_iff_matches hs h' hc' u).mpr (transfers value hc hc' hm)

theorem covers_of_replaced (hs : world.setting options = .ok (world.under v))
    (hp : WellFormed world.heap part) (hp' : WellFormed world.heap part')
    (covers : Covers world v options part part') (h : WellFormed world.heap schema)
    (h' : WellFormed world.heap schema') (hr : Replaced world.heap part part' schema schema') :
    Covers world v options schema schema' := by
  have hpart := (covers_iff_transfers hs hp hp').mp covers
  have hwhole := transfers_of_replaced hpart hr
  exact (covers_iff_transfers hs h h').mpr hwhole

/-- Schemas that, where nothing fails in either, return the same answer to every value. -/
def SameAnswers (world : World) (v : Validator) (options schema schema' : Value) : Prop :=
  ∀ value, Calm (world.under v) v schema value → Calm (world.under v) v schema' value →
    ∀ t u, ∃ passed, (world.test schema value options t).1 = .ok passed ∧
      (world.test schema' value options u).1 = .ok passed

theorem sameAnswers_of_covers (hs : world.setting options = .ok (world.under v))
    (h : WellFormed world.heap schema) (h' : WellFormed world.heap schema')
    (forth : Covers world v options schema schema')
    (back : Covers world v options schema' schema) :
    SameAnswers world v options schema schema' := by
  intro value hc hc' t u
  obtain ⟨passed, hresult, -⟩ := exists_test_result hs h hc t
  obtain ⟨passed', hresult', -⟩ := exists_test_result hs h' hc' u
  have hforth := forth value hc hc' t u
  have hback := back value hc' hc u t
  rw [hresult, hresult'] at hforth hback
  refine ⟨passed, hresult, ?_⟩
  rw [hresult']
  cases passed with
  | true => exact hforth rfl
  | false =>
    cases passed' with
    | true => exact (hback rfl).symm
    | false => rfl

/-- If a schema accepts all that a part accepts, any context with it in the hole accepts all that
the context with the part accepts, and if they accept the same, so do the two contexts. It is the
same for any pair of schemas, shared containers included, that differ in nothing but the part. -/
theorem test_mono_in_context (hs : world.setting options = .ok (world.under v))
    (hp : WellFormed world.heap part) (hp' : WellFormed world.heap part')
    (covers : Covers world v options part part') :
    (∀ context : Context, context.WellFormed world.heap →
        Covers world v options (context.fill part) (context.fill part') ∧
          (Covers world v options part' part →
            SameAnswers world v options (context.fill part) (context.fill part'))) ∧
      ∀ schema schema', WellFormed world.heap schema → WellFormed world.heap schema' →
        Replaced world.heap part part' schema schema' →
          Covers world v options schema schema' ∧
            (Covers world v options part' part → SameAnswers world v options schema schema') := by
  have replaced : ∀ schema schema', WellFormed world.heap schema → WellFormed world.heap schema' →
      Replaced world.heap part part' schema schema' →
        Covers world v options schema schema' ∧
          (Covers world v options part' part → SameAnswers world v options schema schema') := by
    intro schema schema' h h' hr
    have forth := covers_of_replaced hs hp hp' covers h h' hr
    refine ⟨forth, fun back => ?_⟩
    exact sameAnswers_of_covers hs h h' forth (covers_of_replaced hs hp' hp back h' h hr.symm)
  refine ⟨fun context hc => ?_, replaced⟩
  have h := context.wellFormed_fill hp hc
  have h' := context.wellFormed_fill hp' hc
  exact replaced _ _ h h' (replaced_fill world.heap part part' context)

end

/-! ## An example -/

/-- Orders with a hole for what their notes are. -/
def noteContext : Context :=
  .member .list [] (.entry .mapping [sizeEntry] (.str "note") .hole []) []

def textOrNumber : Value := .union [.str "string", .str "number"]

theorem text_wellFormed : WellFormed orderWorld.heap (.str "string") :=
  .intro (k := .atom _) rfl nofun

theorem textOrNumber_wellFormed : WellFormed orderWorld.heap textOrNumber := by
  have number : WellFormed orderWorld.heap (.str "number") := .intro (k := .atom _) rfl nofun
  exact .intro (k := .union _) rfl
    (List.forall_mem_cons.mpr ⟨text_wellFormed, List.forall_mem_singleton.mpr number⟩)

theorem noteContext_wellFormed : noteContext.WellFormed orderWorld.heap := by
  have size : WellFormed orderWorld.heap (.check .integer) := .intro (k := .predicate) rfl nofun
  exact ⟨⟨trivial, List.forall_mem_singleton.mpr size⟩, nofun⟩

/-- A union covers its members. -/
theorem textOrNumber_covers :
    Covers orderWorld closedValidator ticketOptions (.str "string") textOrNumber := by
  rw [covers_iff_transfers rfl text_wellFormed textOrNumber_wellFormed]
  intro value _ _ hm
  exact .union rfl (List.mem_cons_self ..) hm

theorem note_calm : Calm (orderWorld.under closedValidator) closedValidator
    (noteContext.fill (.str "string")) orders := by
  have noted := order_calm closedValidator (text_calm closedValidator "soon")
  exact not_raises_of_tasks (k := .array _) rfl nofun nofun (List.forall_mem_singleton.mpr noted)

theorem wideNote_calm : Calm (orderWorld.under closedValidator) closedValidator
    (noteContext.fill textOrNumber) orders := by
  have number : Calm (orderWorld.under closedValidator) closedValidator (.str "number")
      (.str "soon") := not_raises_of_tasks (k := .atom _) rfl nofun nofun nofun
  have wide : Calm (orderWorld.under closedValidator) closedValidator textOrNumber (.str "soon") :=
    not_raises_of_tasks (k := .union _) rfl nofun nofun (List.forall_mem_cons.mpr
      ⟨text_calm closedValidator "soon", List.forall_mem_singleton.mpr number⟩)
  have noted := order_calm closedValidator wide
  exact not_raises_of_tasks (k := .array _) rfl nofun nofun (List.forall_mem_singleton.mpr noted)

theorem test_mono_in_noteContext :
    orderWorld.setting ticketOptions = .ok (orderWorld.under closedValidator) ∧
      WellFormed orderWorld.heap (.str "string") ∧ WellFormed orderWorld.heap textOrNumber ∧
      Covers orderWorld closedValidator ticketOptions (.str "string") textOrNumber ∧
      noteContext.WellFormed orderWorld.heap ∧
      (orderWorld.test (noteContext.fill (.str "string")) orders ticketOptions .start).1
        = .ok true ∧
      (orderWorld.test (noteContext.fill textOrNumber) orders ticketOptions .start).1
        = .ok true := by
  have hs : orderWorld.setting ticketOptions = .ok (orderWorld.under closedValidator) := rfl
  let s := orderWorld.under closedValidator
  let schema := noteContext.fill (.str "string")
  have hrun : (matchWithin s 1 s.owner schema schema orders .start).1 = .ok none := rfl
  have passes : (orderWorld.test schema orders ticketOptions .start).1 = .ok true :=
    World.test_of_matchWithin hs hrun
  obtain ⟨mono, -⟩ :=
    test_mono_in_context hs text_wellFormed textOrNumber_wellFormed textOrNumber_covers
  have covers := (mono noteContext noteContext_wellFormed).1
  have passesWide := covers orders note_calm wideNote_calm .start .start passes
  exact ⟨hs, text_wellFormed, textOrNumber_wellFormed, textOrNumber_covers,
    noteContext_wellFormed, passes, passesWide⟩

end Conform
