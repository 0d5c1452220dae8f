import Conform.Proofs.Document.Grammar
import Conform.Proofs.Document.Meaning
import Conform.Proofs.Matching.Arrangement
import Conform.Proofs.Matching.Undeclared
import Conform.Proofs.Value.Json
/-!
# Schemas and values out of JSON

A schema out of a document has built-in predicates and texts as names, and a value out of JSON leads
to nothing but JSON under these. So nothing fails when such a value is validated, and what is
reported can be put into words. Main statement: `validate_of_loadable`.
-/

set_option autoImplicit false

namespace Conform

open Document Json

def IsText (name : Value) : Prop := ∃ text, name = .str text

/-! ## Values out of JSON -/

/-- What is come across in JSON: JSON, or nothing under a name. -/
inductive FoundInJson : Value → Prop
  | json (j : Json) : FoundInJson j.toValue
  | absent : FoundInJson .undefined

theorem foundInJson_of_mem_valuesOf {items : List Json} : ∀ v ∈ valuesOf items, FoundInJson v := by
  rw [valuesOf_eq_map]
  exact List.forall_mem_map.mpr fun item _ => .json item

theorem foundInJson_lookup (h : Heap) (name : Value) (members : List (String × Json)) :
    FoundInJson ((h.lookup name (entriesOf members)).getD .undefined) := by
  induction members with
  | nil => exact .absent
  | cons m members ih =>
    rw [entriesOf, lookup_cons]
    split
    · exact .json m.2
    · exact ih

/-- JSON leads to JSON: in items, and under names that are texts. -/
theorem closedUnderSteps_foundInJson (h : Heap) : ClosedUnderSteps h IsText FoundInJson where
  items := by
    intro value items hv hitems
    cases hv with
    | absent => cases hitems
    | json j =>
      cases j with
      | array parts =>
        cases hitems
        exact foundInJson_of_mem_valuesOf
      | _ => cases hitems
  reads := by
    rintro name ⟨text, rfl⟩ value hv hobject hsingle
    cases hv with
    | absent => cases hobject
    | json j =>
      cases j with
      | array parts => cases hsingle
      | object members =>
        exact ⟨_, property_of_entries rfl rfl, foundInJson_lookup h (.str text) members⟩
      | int n => cases (isPlainObject_int n).symm.trans hobject
      | _ => cases hobject

/-- Only ratios can be beyond all doubles, and no JSON is a ratio. -/
theorem exists_isInteger_of_foundInJson {value : Value} (hv : FoundInJson value) :
    ∃ integer, value.isInteger = .ok integer := by
  unfold Value.isInteger
  split
  · exact ⟨_, rfl⟩
  · cases hv with
    | absent => exact ⟨_, rfl⟩
    | json j => cases j <;> exact ⟨_, rfl⟩

theorem exists_holds_of_foundInJson (c : Check) {value : Value} (hv : FoundInJson value) :
    ∃ passed, c.holds value = .ok passed := by
  obtain ⟨integer, hinteger⟩ := exists_isInteger_of_foundInJson hv
  cases c with
  | integer => exact ⟨integer, hinteger⟩
  | positiveInteger =>
    rw [Check.holds, hinteger, ok_bind]
    cases integer <;> exact ⟨_, rfl⟩
  | plainObject => exact ⟨_, rfl⟩
  | null | table =>
    unfold Check.holds
    dsimp only
    split <;> exact ⟨_, rfl⟩

/-! ## Schemas out of documents -/

/-- A well-formed schema of built-in predicates only, the objects of which declare texts. -/
structure Loadable (h : Heap) (schema : Value) : Prop where
  wellFormed : WellFormed h schema
  builtIn : ∀ node, Within h node schema → h.kind? node = some .predicate → ∃ c, node = .check c
  names : ∀ name, h.Declares schema name → IsText name

section

variable {h : Heap} {r : Registry}

/-- What a loadable schema of some kind is, apart from its parts. -/
def Kind.Loadable (schema : Value) : Kind → Prop
  | .predicate => ∃ c, schema = .check c
  | .object entries => ∀ e ∈ entries, IsText e.1
  | _ => True

theorem Loadable.ofKind {schema : Value} {k : Kind} (hk : h.kind? schema = some k)
    (here : k.Loadable schema) (parts : ∀ part ∈ k.parts, Loadable h part) : Loadable h schema := by
  refine ⟨.intro hk fun part hp => (parts part hp).wellFormed, ?_, ?_⟩
  · refine forall_within_of_kind hk (fun hpredicate => ?_) fun part hp => (parts part hp).builtIn
    cases hk.symm.trans hpredicate
    exact here
  · refine forall_declares_of_kind hk (fun entries hobject => ?_) fun part hp =>
      (parts part hp).names
    subst hobject
    exact here

theorem Loadable.part {schema part : Value} {k : Kind} (hs : Loadable h schema)
    (hk : h.kind? schema = some k) (hp : part ∈ k.parts) : Loadable h part :=
  ⟨hs.wellFormed.part hk hp, fun node within => hs.builtIn node (.inside hk hp within),
    fun name hd => hs.names name (hd.ofPart hk hp)⟩

theorem exists_check_of_find? {name p : Value}
    (hp : (Registry.extended h []).find? h name = some p) : ∃ c, p = .check c := by
  have hall : ∀ e ∈ (Registry.extended h []).entries, ∃ c, e.2 = .check c :=
    forall_extended (P := fun _ p => ∃ c, p = .check c) (fun c => ⟨c, rfl⟩)
      (List.forall_mem_nil _) fun _ _ _ _ hp _ _ => hp
  obtain ⟨key, hmem, -⟩ := exists_entry_of_find? hp
  exact hall (key, p) hmem

theorem loadable_of_decodeItems {items : List Json}
    (each : ∀ item ∈ items, ∀ location copy,
      decodeNode h r location item.toValue = .ok copy → Loadable h copy)
    {location : List DocumentStep} {i : Nat} {copies : List Value}
    (hc : decodeItems h r location i (valuesOf items) = .ok copies) :
    ∀ copy ∈ copies, Loadable h copy := by
  rw [valuesOf_eq_map] at hc
  refine forall_mem_of_forall₂ (forall₂_of_decodeItems hc) (List.forall_mem_map.mpr ?_)
  rintro item hitem copy ⟨location, hcopy⟩
  exact each item hitem location copy hcopy

/-- A document, wherever it stands, is the document of a loadable schema. -/
theorem loadable_of_isDocument (hr : ∀ name p, r.find? h name = some p → ∃ c, p = .check c)
    {node : Json} (hd : IsDocument h r node) (location : List DocumentStep) (schema : Value)
    (hs : decodeNode h r location node.toValue = .ok schema) : Loadable h schema := by
  induction hd generalizing location schema with
  | name name =>
    cases hs
    exact .ofKind (k := .atom name) rfl trivial (List.forall_mem_nil _)
  | @predicate node payload p tagged registered =>
    rw [decodeNode_predicate tagged registered] at hs
    cases hs
    obtain ⟨c, rfl⟩ := hr _ _ registered
    exact .ofKind (k := .predicate) rfl ⟨c, rfl⟩ (List.forall_mem_nil _)
  | @regexp node source p tagged valid =>
    rw [decodeNode_regexp tagged, decodePattern, valid] at hs
    cases hs
    exact .ofKind (k := .pattern p) rfl trivial (List.forall_mem_nil _)
  | @container node parts holds each ih =>
    cases holds with
    | list =>
      rw [Json.toValue, decodeNode] at hs
      obtain ⟨copies, hcopies, hs⟩ := exists_of_bind_eq_ok hs
      cases hs
      exact .ofKind (k := .array copies) rfl trivial (loadable_of_decodeItems ih hcopies)
    | array tagged =>
      rw [decodeNode_array tagged] at hs
      obtain ⟨copies, hcopies, hs⟩ := exists_of_bind_eq_ok hs
      cases hs
      exact .ofKind (k := .array copies) rfl trivial (loadable_of_decodeItems ih hcopies)
    | union tagged =>
      rw [decodeNode_union tagged] at hs
      obtain ⟨copies, hcopies, hs⟩ := exists_of_bind_eq_ok hs
      cases hs
      exact .ofKind (k := .union copies) rfl trivial (loadable_of_decodeItems ih hcopies)
    | @obj _ members tagged =>
      rw [decodeNode_obj tagged, entriesOf_eq_map] at hs
      obtain ⟨copies, hcopies, hs⟩ := exists_of_bind_eq_ok hs
      cases hs
      have heach := forall₂_of_decodeEntries hcopies
      refine .ofKind (k := .object copies) rfl ?_ (List.forall_mem_map.mpr ?_)
      · refine forall_mem_of_forall₂ heach (List.forall_mem_map.mpr ?_)
        exact fun m _ e he => ⟨m.1, he.1.symm⟩
      · refine forall_mem_of_forall₂ heach (List.forall_mem_map.mpr ?_)
        rintro m hm e ⟨-, location, he⟩
        exact ih m.2 (List.mem_map_of_mem hm) location e.2 he

/-- A document that names built-in predicates only gives a loadable schema. -/
theorem loadable_of_decode {document : Json} {schema : Value}
    (hs : decode h (.extended h []) document.toValue = .ok schema) : Loadable h schema := by
  have hd := isDocument_of_decode hs
  rw [decode_toValue] at hs
  exact loadable_of_isDocument (fun _ _ => exists_check_of_find?) hd [] schema hs

end

/-! ## Mismatches -/

/-- JSON without integers of too many digits. -/
inductive ShortJson : Json → Prop
  | null : ShortJson .null
  | bool (b : Bool) : ShortJson (.bool b)
  | int (n : Int) (short : isOverlong n = false) : ShortJson (.int n)
  | float (x : Double) : ShortJson (.float x)
  | str (s : String) : ShortJson (.str s)
  | array {items : List Json} (each : ∀ item ∈ items, ShortJson item) : ShortJson (.array items)
  | object {members : List (String × Json)} (each : ∀ m ∈ members, ShortJson m.2) :
      ShortJson (.object members)

section

variable {h : Heap} {onLink : Nat → Option Json}

theorem toValue_ne_undefined (j : Json) : j.toValue ≠ .undefined := by
  cases j <;> nofun

theorem exists_jsonItems_valuesOf {items : List Json}
    (each : ∀ item ∈ items, ∃ shown, jsonWith h onLink item.toValue = some shown) :
    ∃ shown, jsonItems h onLink (valuesOf items) = some shown := by
  induction items with
  | nil => exact ⟨[], rfl⟩
  | cons item items ih =>
    obtain ⟨⟨first, hfirst⟩, hrest⟩ := List.forall_mem_cons.mp each
    obtain ⟨others, hothers⟩ := ih hrest
    refine ⟨first :: others, ?_⟩
    rw [valuesOf, jsonItems, hfirst, hothers]
    · rfl
    · exact toValue_ne_undefined item

theorem exists_jsonMembers_entriesOf {members : List (String × Json)}
    (each : ∀ m ∈ members, ∃ shown, jsonWith h onLink m.2.toValue = some shown) :
    ∃ shown, jsonMembers h onLink (entriesOf members) = some shown := by
  induction members with
  | nil => exact ⟨[], rfl⟩
  | cons m members ih =>
    obtain ⟨⟨first, hfirst⟩, hrest⟩ := List.forall_mem_cons.mp each
    obtain ⟨others, hothers⟩ := ih hrest
    refine ⟨(m.1, first) :: others, ?_⟩
    rw [entriesOf, jsonMembers, hfirst, hothers]
    · rfl
    · exact toValue_ne_undefined m.2

/-- JSON has a JSON form. It need not be the same, as some numbers have none. -/
theorem exists_jsonWith_toValue {j : Json} (hj : ShortJson j) :
    ∃ shown, jsonWith h onLink j.toValue = some shown := by
  induction hj with
  | int n short => exact ⟨.int n, integerJson?_short short⟩
  | null | bool _ | float _ | str _ => exact ⟨_, rfl⟩
  | array _ ih =>
    obtain ⟨shown, hshown⟩ := exists_jsonItems_valuesOf ih
    exact ⟨.array shown, by rw [Json.toValue, jsonWith, hshown, Option.map_some]⟩
  | object _ ih =>
    obtain ⟨shown, hshown⟩ := exists_jsonMembers_entriesOf ih
    exact ⟨.object shown, by rw [Json.toValue, jsonWith, hshown, Option.map_some]⟩

end

/-- A mismatch that can be put into words: its path is made of names and indices, and it found
JSON, which has a text if its integers have, or nothing, where a loadable schema was expected. -/
structure Sayable (h : Heap) (m : Mismatch) : Prop where
  path : ∀ step ∈ m.path, IsText step ∨ ∃ i : Nat, step = .int i
  actual : FoundInJson m.actual
  shown : ∀ j : Json, m.actual = j.toValue → ShortJson j →
    ∃ text, h.jsonText? m.actual = some text
  expected : Loadable h m.expected

variable {s : Setting} {w : Validator}

theorem sayable_of_found (h : Heap) {value expected : Value} (hv : FoundInJson value)
    (he : Loadable h expected) : Sayable h ⟨[], value, expected⟩ := by
  refine ⟨nofun, hv, fun j hj short => ?_, he⟩
  obtain ⟨onLink, -, hjson, -⟩ := exists_inside_eq h (h.size + 1) []
  obtain ⟨shown, hshown⟩ := exists_jsonWith_toValue (h := h) short
  rw [← hj, ← hjson, ← json?_eq] at hshown
  exact ⟨shown.text .dense, congrArg (Option.map (Json.text .dense)) hshown⟩

theorem sayable_of_failingWalk {schema value expected actual : Value} {path : List Value}
    (hw : FailingWalk s w schema value path expected actual) (hs : Loadable s.heap schema)
    (hv : FoundInJson value) : Sayable s.heap ⟨path, actual, expected⟩ := by
  induction hw with
  | here => exact sayable_of_found s.heap hv hs
  | @down schema value step part inner expected actual path enters rest ih =>
    obtain ⟨k, hk⟩ := hs.wellFormed.exists_kind .here
    have hnames (entries : List (Value × Value)) (he : k = .object entries)
        (e : Value × Value) (hmem : e ∈ entries) : IsText e.1 := by
      subst he
      exact hs.names e.1 (declares_of_mem hk hmem)
    have htask := mem_reached_of_enters hk enters
    have hinner : FoundInJson inner :=
      (closedUnderSteps_foundInJson s.heap).of_mem_reached hv hnames htask
    have hpart := Setting.mem_parts_of_mem_tasks (Setting.mem_tasks_of_mem_reached htask)
    have hrest := ih (hs.part hk hpart) hinner
    refine ⟨List.forall_mem_cons.mpr ⟨?_, hrest.path⟩, hrest.actual, hrest.shown, hrest.expected⟩
    cases enters with
    | item i => exact .inr ⟨i, rfl⟩
    | property i kind admits here =>
      cases kind.symm.trans hk
      exact .inl (hnames _ rfl _ (List.mem_of_getElem? here))

/-! ## Validations -/

theorem calm_of_loadable {schema value : Value} (hs : Loadable s.heap schema)
    (hv : FoundInJson value) : Calm s w schema value := by
  refine calm_of_closedUnderSteps (closedUnderSteps_foundInJson s.heap) hs.wellFormed hs.names
    (fun node within kind value hv => ?_) value hv
  obtain ⟨c, rfl⟩ := hs.builtIn node within kind
  obtain ⟨passed, hpassed⟩ := exists_holds_of_foundInJson c hv
  refine ⟨passed, ?_⟩
  rw [← hpassed]
  exact answers_check s w c value

/-- The validation of a value out of JSON against a loadable schema returns, and a mismatch that it
reports can be put into words. -/
theorem validate_of_loadable {schema value : Value} (hs : Loadable s.heap schema)
    (hv : FoundInJson value) :
    ∃ found, (s.validate schema value .start).1 = .ok found ∧
      ∀ m, found = some m → Sayable s.heap m := by
  obtain ⟨found, t, hrun, hj⟩ :=
    exists_validate_judged hs.wellFormed (calm_of_loadable hs hv) .start
  refine ⟨found, congrArg Prod.fst hrun, ?_⟩
  rintro m rfl
  cases hj with
  | @refused walk expected actual hwalk =>
    have hroot : Trace.start.pathIn s.owner.lane = [] := by cases s.owner.lane <;> rfl
    rw [hroot]
    exact sayable_of_failingWalk hwalk hs hv

end Conform
