import Conform.Proofs.Matching.Verdict
import Conform.Schema.Composition
/-!
# How schemas are put together

The members of a union may be put in another order, repeated, or written out from unions among
them, and the entries of an object may be put in another order, at any place in a schema. The
same values match. If only unions are put together in another way, values fail at the same place.
-/

set_option autoImplicit false

namespace Conform

open Validation

/-! ## Rearrangements -/

/-- Schemas put together in two ways: unions with the same members, a union with another in place
of the members of that, and, where objects may be reordered, objects with the same entries. -/
inductive Rewritten (h : Heap) (reorders : Bool) : Value → Value → Prop
  | regrouped {v v' : Value} {members members' : List Value}
      (kind : h.kind? v = some (.union members)) (kind' : h.kind? v' = some (.union members'))
      (same : ∀ member, member ∈ members ↔ member ∈ members') : Rewritten h reorders v v'
  | spliced {v v' inner : Value} {nested : List Value} (before after : List Value)
      (kind : h.kind? v = some (.union (before ++ inner :: after)))
      (nests : h.kind? inner = some (.union nested))
      (kind' : h.kind? v' = some (.union (before ++ nested ++ after))) : Rewritten h reorders v v'
  | reordered {v v' : Value} {entries entries' : List (Value × Value)} (allowed : reorders = true)
      (kind : h.kind? v = some (.object entries)) (kind' : h.kind? v' = some (.object entries'))
      (permuted : entries.Perm entries') : Rewritten h reorders v v'

/-- Schemas that any number of steps there and back lead between, each at any places and depth. -/
def Rearranged (h : Heap) (reorders : Bool) : Value → Value → Prop :=
  Relation.EqvGen (Congruent h (Rewritten h reorders))

theorem optional_nullable_rearranged (h : Heap) (reorders : Bool) (schema : Value) :
    Rearranged h reorders (Schema.optional (Schema.nullable schema))
      (Schema.optionalNullable schema) := by
  have hsplice : Rewritten h reorders (Schema.optional (Schema.nullable schema))
      (Schema.union [.str Tag.undefined.name, .check .null, schema]) :=
    .spliced [.str Tag.undefined.name] [] rfl rfl rfl
  have hswap : Rewritten h reorders (Schema.union [.str Tag.undefined.name, .check .null, schema])
      (Schema.optionalNullable schema) := by
    refine .regrouped rfl rfl fun member => ?_
    simp only [List.mem_cons]
    exact or_left_comm
  exact .trans _ _ _ (.rel _ _ (.changed hsplice)) (.rel _ _ (.changed hswap))

theorem nullable_optional_rearranged (h : Heap) (reorders : Bool) (schema : Value) :
    Rearranged h reorders (Schema.nullable (Schema.optional schema))
      (Schema.optionalNullable schema) := by
  have hsplice : Rewritten h reorders (Schema.nullable (Schema.optional schema))
      (Schema.optionalNullable schema) :=
    .spliced [.check .null] [] rfl rfl rfl
  exact .rel _ _ (.changed hsplice)

variable {s : Setting} {w : Validator}

/-! ## The same values match -/

/-- Schemas that the same values match. -/
def Equivalent (s : Setting) (w : Validator) (schema schema' : Value) : Prop :=
  ∀ value, Matches s w schema value ↔ Matches s w schema' value

theorem fits_iff_of_sameName {value : Value} {e e' : Value × Value}
    (h : Kind.SameName (Equivalent s w) e e') : Fits s w value e ↔ Fits s w value e' := by
  unfold Fits
  rw [h.1]
  exact exists_congr fun read => and_congr_right fun _ => h.2 read

theorem admits_iff_of_length {entries entries' : List (Value × Value)} {value : Value}
    (h : entries.length = entries'.length) :
    s.Admits w entries value ↔ s.Admits w entries' value := by
  constructor
  · exact fun ha => ⟨ha.object, ha.notArray, fun hc => h ▸ ha.room hc⟩
  · exact fun ha => ⟨ha.object, ha.notArray, fun hc => h.symm ▸ ha.room hc⟩

theorem undeclared_iff_of_forall₂ {h : Heap} {r : Value → Value → Prop}
    {entries entries' : List (Value × Value)} {name : Value}
    (each : List.Forall₂ (Kind.SameName r) entries entries') :
    h.Undeclared entries name ↔ h.Undeclared entries' name :=
  forall_mem_iff_of_forall₂ (each.imp fun e e' he => by rw [he.1])

/-- The same values match containers whose parts the same values match. -/
theorem equivalent_of_related {schema schema' : Value} {k k' : Kind}
    (hk : s.heap.kind? schema = some k) (hk' : s.heap.kind? schema' = some k')
    (h : k.Related (Equivalent s w) k') : Equivalent s w schema schema' := by
  intro value
  cases h with
  | @array members members' each =>
    rw [matches_array_iff hk, matches_array_iff hk']
    have hpairs := s.pairs_related each value
    generalize s.pairs members value = found at hpairs ⊢
    generalize s.pairs members' value = found' at hpairs ⊢
    cases hpairs with
    | none => exact Iff.rfl
    | some hpairs =>
      simp only [Option.some.injEq, exists_eq_left']
      refine forall_mem_iff_of_forall₂ (hpairs.imp fun pair pair' hpair => ?_)
      rw [hpair.1 pair.2, hpair.2]
  | union each =>
    rw [matches_union_iff hk, matches_union_iff hk']
    exact exists_mem_iff_of_forall₂ (each.imp fun member member' hm => hm value)
  | object each =>
    rw [matches_object_iff hk, matches_object_iff hk', admits_iff_of_length each.length_eq,
      forall_mem_iff_of_forall₂ (each.imp fun _ _ he => fits_iff_of_sameName he)]
    simp only [undeclared_iff_of_forall₂ each]

theorem equivalent_of_rewritten {reorders : Bool} {schema schema' : Value}
    (h : Rewritten s.heap reorders schema schema') : Equivalent s w schema schema' := by
  intro value
  cases h with
  | regrouped kind kind' same =>
    rw [matches_union_iff kind, matches_union_iff kind']
    exact exists_congr fun member => and_congr_left fun _ => same member
  | spliced _ _ kind nests kind' =>
    rw [matches_union_iff kind, matches_union_iff kind']
    simp only [List.mem_append, List.mem_cons, or_and_right, exists_or, exists_eq_left,
      matches_union_iff nests, or_assoc]
  | reordered _ kind kind' permuted =>
    rw [matches_object_iff kind, matches_object_iff kind', admits_iff_of_length permuted.length_eq]
    simp only [permuted.mem_iff, Heap.Undeclared]

theorem equivalent_of_rearranged {reorders : Bool} {schema schema' : Value}
    (h : Rearranged s.heap reorders schema schema') : Equivalent s w schema schema' := by
  induction h with
  | rel schema schema' hc =>
    exact hc.le (fun _ _ => Iff.rfl) (fun _ _ => equivalent_of_rewritten)
      fun _ _ _ _ => equivalent_of_related
  | refl schema => exact fun _ => Iff.rfl
  | symm schema schema' _ ih => exact fun value => (ih value).symm
  | trans schema schema' schema'' _ _ ih ih' => exact fun value => (ih value).trans (ih' value)

/-! ## They fail at the same place -/

/-- The failing walk goes along a path and ends at `actual`, whatever is expected there. -/
def Stops (s : Setting) (w : Validator) (schema value : Value) (path : List Value)
    (actual : Value) : Prop :=
  ∃ expected, FailingWalk s w schema value path expected actual

/-- Schemas that the same values match, and that the other values fail at the same place. -/
structure Interchangeable (s : Setting) (w : Validator) (schema schema' : Value) : Prop where
  equivalent : Equivalent s w schema schema'
  stops_iff : ∀ value path actual,
    Stops s w schema value path actual ↔ Stops s w schema' value path actual

theorem stops_union_iff {schema value actual : Value} {path members : List Value}
    (hk : s.heap.kind? schema = some (.union members)) :
    Stops s w schema value path actual ↔
      path = [] ∧ actual = value ∧ ¬ Matches s w schema value := by
  constructor
  · rintro ⟨expected, walk⟩
    have hnot := not_matches_of_failingWalk walk
    cases walk with
    | here => exact ⟨rfl, rfl, hnot⟩
    | down enters =>
      cases enters with
      | item _ kind => cases hk.symm.trans kind
      | property _ kind => cases hk.symm.trans kind
  · rintro ⟨rfl, rfl, hnot⟩
    refine ⟨schema, .here (.union hk fun member hm h => hnot ?_)⟩
    exact (matches_union_iff hk).mpr ⟨member, hm, h⟩

/-- A part that stops values where another part does, of containers put together from such parts. -/
def Carries (s : Setting) (w : Validator) (part part' : Value) : Prop :=
  Equivalent s w part part' ∧
    ∀ value path actual, Stops s w part value path actual → Stops s w part' value path actual

theorem stops_array {schema schema' value actual : Value} {path members members' : List Value}
    (hk : s.heap.kind? schema = some (.array members))
    (hk' : s.heap.kind? schema' = some (.array members'))
    (each : List.Forall₂ (Carries s w) members members')
    (hs : Stops s w schema value path actual) : Stops s w schema' value path actual := by
  have hpairs := s.pairs_related each value
  obtain ⟨expected, walk⟩ := hs
  cases walk with
  | here fails =>
    cases fails with
    | array kind misfit =>
      cases hk.symm.trans kind
      rw [misfit] at hpairs
      generalize hp' : s.pairs members' value = found at hpairs
      cases hpairs
      exact ⟨schema', .here (.array hk' hp')⟩
    | _ => simp_all
  | @down _ _ step part inner _ _ _ enters rest =>
    cases enters with
    | item i kind fits here earlier =>
      cases hk.symm.trans kind
      rw [fits] at hpairs
      generalize hp' : s.pairs members' value = found at hpairs
      cases hpairs with
      | some hpairs =>
        obtain ⟨⟨part', inner'⟩, here', hpart, hinner⟩ := exists_getElem?_of_forall₂ hpairs here
        obtain ⟨expected', rest'⟩ := hpart.2 inner _ actual ⟨expected, rest⟩
        dsimp only at hinner
        subst hinner
        refine ⟨expected', .down (.item i hk' hp' here' fun j pair' hj hpair' => ?_) rest'⟩
        obtain ⟨pair, hpair, hsame⟩ := exists_getElem?_of_forall₂ hpairs.flip hpair'
        rw [← hsame.2]
        exact (hsame.1.1 pair.2).mp (earlier j pair hj hpair)
    | property _ kind => cases hk.symm.trans kind

theorem stops_object {schema schema' value actual : Value} {path : List Value}
    {entries entries' : List (Value × Value)}
    (hk : s.heap.kind? schema = some (.object entries))
    (hk' : s.heap.kind? schema' = some (.object entries'))
    (each : List.Forall₂ (Kind.SameName (Carries s w)) entries entries')
    (hs : Stops s w schema value path actual) : Stops s w schema' value path actual := by
  have hadmits : s.Admits w entries value ↔ s.Admits w entries' value :=
    admits_iff_of_length each.length_eq
  have hfits : List.Forall₂ (fun e e' => Fits s w value e ↔ Fits s w value e') entries entries' :=
    each.imp fun e e' he => fits_iff_of_sameName ⟨he.1, he.2.1⟩
  obtain ⟨expected, walk⟩ := hs
  cases walk with
  | here fails =>
    cases fails with
    | object kind refused =>
      cases hk.symm.trans kind
      exact ⟨schema', .here (.object hk' fun ha => refused (hadmits.mpr ha))⟩
    | undeclared kind admits fits closed owned extra =>
      cases hk.symm.trans kind
      exact ⟨schema', .here (.undeclared hk' (hadmits.mp admits)
        ((forall_mem_iff_of_forall₂ hfits).mp fits) closed owned
        ((undeclared_iff_of_forall₂ each).mp extra))⟩
    | _ => simp_all
  | @down _ _ step part inner _ _ _ enters rest =>
    cases enters with
    | item _ kind => cases hk.symm.trans kind
    | property i kind admits here earlier read =>
      cases hk.symm.trans kind
      obtain ⟨⟨name', part'⟩, here', hname, hpart⟩ := exists_getElem?_of_forall₂ each here
      obtain ⟨expected', rest'⟩ := hpart.2 inner _ actual ⟨expected, rest⟩
      dsimp only at hname
      subst hname
      refine ⟨expected', .down
        (.property i hk' (hadmits.mp admits) here' (fun j e' hj he' => ?_) read) rest'⟩
      obtain ⟨e, he, hiff⟩ := exists_getElem?_of_forall₂ hfits.flip he'
      exact hiff.mp (earlier j e hj he)

theorem stops_of_related {schema schema' value actual : Value} {path : List Value} {k k' : Kind}
    (hk : s.heap.kind? schema = some k) (hk' : s.heap.kind? schema' = some k')
    (h : k.Related (Carries s w) k') (hs : Stops s w schema value path actual) :
    Stops s w schema' value path actual := by
  have hequivalent := equivalent_of_related hk hk' (h.imp fun _ _ hc => hc.1) value
  cases h with
  | array each => exact stops_array hk hk' each hs
  | union each =>
    rw [stops_union_iff hk, hequivalent] at hs
    exact (stops_union_iff hk').mpr hs
  | object each => exact stops_object hk hk' each hs

theorem interchangeable_of_related {schema schema' : Value} {k k' : Kind}
    (hk : s.heap.kind? schema = some k) (hk' : s.heap.kind? schema' = some k')
    (h : k.Related (Interchangeable s w) k') : Interchangeable s w schema schema' := by
  have forth : k.Related (Carries s w) k' := h.imp fun part part' hi =>
    ⟨hi.equivalent, fun value path actual => (hi.stops_iff value path actual).mp⟩
  have back : k'.Related (Carries s w) k := h.symm.imp fun part part' hi =>
    ⟨fun value => (hi.equivalent value).symm,
      fun value path actual => (hi.stops_iff value path actual).mpr⟩
  refine ⟨equivalent_of_related hk hk' (h.imp fun _ _ hi => hi.equivalent), ?_⟩
  exact fun value path actual => ⟨stops_of_related hk hk' forth, stops_of_related hk' hk back⟩

/-- A union fails as a whole, however it is put together. -/
theorem interchangeable_of_rewritten {schema schema' : Value}
    (h : Rewritten s.heap false schema schema') : Interchangeable s w schema schema' := by
  have hequivalent : Equivalent s w schema schema' := equivalent_of_rewritten h
  have hunions {members members' : List Value} (hk : s.heap.kind? schema = some (.union members))
      (hk' : s.heap.kind? schema' = some (.union members')) :
      Interchangeable s w schema schema' := by
    refine ⟨hequivalent, fun value path actual => ?_⟩
    rw [stops_union_iff hk, stops_union_iff hk', hequivalent value]
  cases h with
  | regrouped kind kind' => exact hunions kind kind'
  | spliced _ _ kind _ kind' => exact hunions kind kind'
  | reordered allowed => cases allowed

theorem interchangeable_of_rearranged {schema schema' : Value}
    (h : Rearranged s.heap false schema schema') : Interchangeable s w schema schema' := by
  have refl (schema : Value) : Interchangeable s w schema schema :=
    ⟨fun _ => Iff.rfl, fun _ _ _ => Iff.rfl⟩
  induction h with
  | rel schema schema' hc =>
    exact hc.le refl (fun _ _ => interchangeable_of_rewritten)
      fun _ _ _ _ => interchangeable_of_related
  | refl schema => exact refl schema
  | symm schema schema' _ ih =>
    exact ⟨fun value => (ih.equivalent value).symm,
      fun value path actual => (ih.stops_iff value path actual).symm⟩
  | trans schema schema' schema'' _ _ ih ih' =>
    exact ⟨fun value => (ih.equivalent value).trans (ih'.equivalent value),
      fun value path actual => (ih.stops_iff value path actual).trans
        (ih'.stops_iff value path actual)⟩

/-! ## Tests -/

theorem exists_validate_judged {schema value : Value} (h : WellFormed s.heap schema)
    (hraise : ∀ failure, ¬ Raises s s.owner schema value failure) (t : Trace) :
    ∃ found u, s.validate schema value t = (.ok found, u) ∧
      Judged s s.owner schema value (t.pathIn s.owner.lane) (.ok found) := by
  have hj := judged_validate h value t
  rcases hrun : s.validate schema value t with ⟨e | found, u⟩
  · rw [hrun] at hj
    cases hj with
    | raised hf => exact absurd hf (hraise e)
  · rw [hrun] at hj
    exact ⟨found, u, rfl, hj⟩

section

variable {schema schema' value : Value} {path : List Value}

theorem isNone_eq_of_judged {found found' : Option Mismatch}
    (hj : Judged s w schema value path (.ok found))
    (hj' : Judged s w schema' value path (.ok found')) (h : Equivalent s w schema schema') :
    found.isNone = found'.isNone := by
  cases hj with
  | passed hm =>
    cases hj' with
    | passed => rfl
    | refused walk => exact absurd ((h value).mp hm) (not_matches_of_failingWalk walk)
  | refused walk =>
    cases hj' with
    | passed hm => exact absurd ((h value).mpr hm) (not_matches_of_failingWalk walk)
    | refused => rfl

/-- Failing walks are unique, so those of interchangeable schemas end at the same place. -/
theorem same_place_of_judged {m m' : Mismatch}
    (hj : Judged s w schema value path (.ok (some m)))
    (hj' : Judged s w schema' value path (.ok (some m')))
    (h : Interchangeable s w schema schema') : m.path = m'.path ∧ m.actual = m'.actual := by
  cases hj with
  | refused walk =>
    cases hj' with
    | refused walk' =>
      obtain ⟨expected, hwalk⟩ := (h.stops_iff value _ _).mp ⟨_, walk⟩
      obtain ⟨rfl, -, rfl⟩ := eq_of_failingWalk hwalk walk'
      exact ⟨rfl, rfl⟩

end

/-- If no predicate and no reading of a property fails, tests of a value against a schema and
against a rearranged one return, with the same answer; and if no entries are reordered, the
mismatches that are reported have the same path and the same actual value. An optional nullable
schema is a rearrangement of the others, in either order of the two. -/
theorem test_eq_of_rearranged {world : World} {schema schema' value options : Value} {s : Setting}
    {reorders : Bool} (hs : world.setting options = .ok s) (h : WellFormed world.heap schema)
    (h' : WellFormed world.heap schema') (hr : Rearranged world.heap reorders schema schema')
    (hraise : ∀ failure, ¬ Raises s s.owner schema value failure)
    (hraise' : ∀ failure, ¬ Raises s s.owner schema' value failure) (t : Trace) :
    (∃ passed u u', world.test schema value options t = (.ok passed, u) ∧
        world.test schema' value options t = (.ok passed, u')) ∧
      (reorders = false → ∀ m m' u u', world.validate schema value options t = (.ok (some m), u) →
        world.validate schema' value options t = (.ok (some m'), u') →
        m.path = m'.path ∧ m.actual = m'.actual) ∧
      ∀ part, Rearranged world.heap reorders (Schema.optional (Schema.nullable part))
          (Schema.optionalNullable part) ∧
        Rearranged world.heap reorders (Schema.nullable (Schema.optional part))
          (Schema.optionalNullable part) := by
  obtain rfl := toWorld_of_setting hs
  obtain ⟨found, u, hrun, hj⟩ := exists_validate_judged h hraise t
  obtain ⟨found', u', hrun', hj'⟩ := exists_validate_judged h' hraise' t
  have hvalidate (schema : Value) :
      s.toWorld.validate schema value options t = s.validate schema value t := by
    rw [World.validate, hs, lift_ok, pure_bind]
  have htest {schema : Value} {found : Option Mismatch} {u : Trace}
      (hrun : s.validate schema value t = (.ok found, u)) :
      s.toWorld.test schema value options t = (.ok found.isNone, u) :=
    bind_of_ok ((hvalidate schema).trans hrun) _
  refine ⟨⟨found.isNone, u, u', htest hrun, ?_⟩, ?_, fun part =>
    ⟨optional_nullable_rearranged s.heap reorders part,
      nullable_optional_rearranged s.heap reorders part⟩⟩
  · rw [isNone_eq_of_judged hj hj' (equivalent_of_rearranged hr)]
    exact htest hrun'
  · rintro rfl m m' u u' hm hm'
    cases ((hvalidate schema).symm.trans hm).symm.trans hrun
    cases ((hvalidate schema').symm.trans hm').symm.trans hrun'
    exact same_place_of_judged hj hj' (interchangeable_of_rearranged hr)

/-- The tag of a ticket as a union inside a union. -/
def nestedTicketSchema : Value :=
  .mapping [(.str "ids", .list [.check .integer]),
    (.str "tag", .union [.union [.str "string"], .list []])]

theorem nestedTicketSchema_wellFormed : WellFormed ticketSetting.heap nestedTicketSchema := by
  have text : WellFormed ticketSetting.heap (.str "string") := .intro (k := .atom _) rfl nofun
  have texts : WellFormed ticketSetting.heap (.union [.str "string"]) :=
    .intro (k := .union _) rfl (List.forall_mem_singleton.mpr text)
  have anything : WellFormed ticketSetting.heap (.list []) := .intro (k := .array _) rfl nofun
  exact wellFormed_of_tag (.intro (k := .union _) rfl
    (List.forall_mem_cons.mpr ⟨texts, List.forall_mem_singleton.mpr anything⟩))

theorem nestedTicketSchema_rearranged :
    Rearranged ticketSetting.heap false ticketSchema nestedTicketSchema := by
  have hsplice : Rewritten ticketSetting.heap false (.union [.union [.str "string"], .list []])
      (.union [.str "string", .list []]) :=
    .spliced [] [.list []] rfl rfl rfl
  have hinside : Congruent ticketSetting.heap (Rewritten ticketSetting.heap false)
      nestedTicketSchema ticketSchema :=
    .ofRelated rfl rfl (.object (.cons ⟨rfl, .same _⟩ (.cons ⟨rfl, .changed hsplice⟩ .nil)))
  exact .symm _ _ (.rel _ _ hinside)

theorem not_raises_nestedTicket (failure : Failure) :
    ¬ Raises ticketSetting ticketSetting.owner nestedTicketSchema ticket failure := by
  have texts (failure : Failure) :
      ¬ Raises ticketSetting ticketSetting.owner (.union [.str "string"]) (.bool true) failure :=
    not_raises_of_tasks (k := .union _) rfl nofun nofun
      (List.forall_mem_singleton.mpr not_raises_text) failure
  refine not_raises_of_tag (fun failure => ?_) failure
  exact not_raises_of_tasks (k := .union _) rfl nofun nofun
    (List.forall_mem_cons.mpr ⟨texts, List.forall_mem_singleton.mpr not_raises_anything⟩) failure

theorem test_ticket_eq_of_rearranged :
    ticketSetting.setting ticketOptions = .ok ticketSetting ∧
      WellFormed ticketSetting.heap ticketSchema ∧
      WellFormed ticketSetting.heap nestedTicketSchema ∧
      Rearranged ticketSetting.heap false ticketSchema nestedTicketSchema ∧
      (∀ failure, ¬ Raises ticketSetting ticketSetting.owner ticketSchema ticket failure) ∧
      (∀ failure, ¬ Raises ticketSetting ticketSetting.owner nestedTicketSchema ticket failure) ∧
      ∃ passed u u', ticketSetting.test ticketSchema ticket ticketOptions .start
          = (.ok passed, u) ∧
        ticketSetting.test nestedTicketSchema ticket ticketOptions .start = (.ok passed, u') :=
  ⟨rfl, ticketSchema_wellFormed, nestedTicketSchema_wellFormed, nestedTicketSchema_rearranged,
    not_raises_ticket, not_raises_nestedTicket,
    (test_eq_of_rearranged (s := ticketSetting) rfl ticketSchema_wellFormed
      nestedTicketSchema_wellFormed nestedTicketSchema_rearranged not_raises_ticket
      not_raises_nestedTicket .start).1⟩

end Conform
