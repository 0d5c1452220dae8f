import Conform.Proofs.Document.Tagged
import Conform.Proofs.Schema.Nesting
import Mathlib.Tactic.Choose
/-!
# Documents give back their schemas

The document of a schema holds all there is to know about it, if its patterns were compiled
without flags and its predicates are registered under their names. Decoding it gives an equal
schema in the same order, with shared containers copied to every place that links to them.
-/

set_option autoImplicit false

namespace Conform

open Document

/-! ## Schemas that documents can hold -/

/-- A schema built from texts, patterns that were compiled without flags, predicates registered
under the names that they carry, lists, unions, and mappings with texts as names. -/
inductive Portable (h : Heap) (r : Registry) : Value → Prop
  | text {v : Value} {s : String} (text : v.text? = some s) : Portable h r v
  | pattern {handle : Option Nat} (source : String) {p : Pattern}
      (compiled : Pattern.ofSource source .off = .ok p) :
      Portable h r (.object handle (.pattern p))
  /-- Anything that can be called and that has come from outside, or is built in, equals itself. -/
  | predicate {p name : Value} (callable : p.isCallable = true) (itself : h.equal p p = true)
      (named : p.predicateName? = some name) (registered : r.find? h name = some p) :
      Portable h r p
  | list {items : List Value} (each : ∀ item ∈ items, Portable h r item) :
      Portable h r (.list items)
  | union {members : List Value} (each : ∀ member ∈ members, Portable h r member) :
      Portable h r (.union members)
  | mapping {entries : List (Value × Value)} (named : Named entries)
      (each : ∀ e ∈ entries, Portable h r e.2) : Portable h r (.mapping entries)
  | link {a : Nat} (shared : Portable h r (h.cell a)) : Portable h r (.link a)

/-- A schema and a copy of it, with the same members, elements and names in the same order. Links
are replaced by what they lead to, and patterns are compiled anew. -/
inductive Copied (h : Heap) : (original copy : Value) → Prop
  | same (v : Value) : Copied h v v
  | pattern (handle : Option Nat) (p : Pattern) :
      Copied h (.object handle (.pattern p)) (.object none (.pattern p))
  | list {items items' : List Value} (length : items.length = items'.length)
      (each : ∀ (i : Nat) (item item' : Value), items[i]? = some item →
        items'[i]? = some item' → Copied h item item') : Copied h (.list items) (.list items')
  | union {members members' : List Value} (length : members.length = members'.length)
      (each : ∀ (i : Nat) (member member' : Value), members[i]? = some member →
        members'[i]? = some member' → Copied h member member') :
      Copied h (.union members) (.union members')
  | mapping {entries entries' : List (Value × Value)}
      (names : entries.map Prod.fst = entries'.map Prod.fst)
      (each : ∀ (i : Nat) (e e' : Value × Value), entries[i]? = some e →
        entries'[i]? = some e' → Copied h e.2 e'.2) :
      Copied h (.mapping entries) (.mapping entries')
  | link {a : Nat} {copy : Value} (shared : Copied h (h.cell a) copy) : Copied h (.link a) copy

variable {h : Heap} {r : Registry}

theorem wellFormed_of_portable {v : Value} (hv : Portable h r v) : WellFormed h v := by
  induction hv with
  | @text v s text =>
    rcases text_cases text with rfl | ⟨handle, member, rfl⟩
    all_goals exact .intro (k := .atom s) rfl nofun
  | @pattern handle source p compiled => exact .intro (k := .pattern p) rfl nofun
  | predicate callable => exact wellFormed_of_callable callable
  | @list items each ih => exact .intro (k := .array items) rfl ih
  | @union members each ih => exact .intro (k := .union members) rfl ih
  | @mapping entries named each ih =>
    refine .intro (k := .object entries) rfl fun part hp => ?_
    obtain ⟨e, he, rfl⟩ := List.mem_map.mp hp
    exact ih e he
  | link shared ih => exact ih.link

/-! ## There and back -/

/-- A schema has a document, which holds no links and gives back a copy that equals it. -/
structure RoundTrip (h : Heap) (r : Registry) (v document copy : Value) : Prop where
  encodes : ∀ n, Nests h n v → encodeThrough h n v = .ok document
  linkFree : ∀ follow, unfoldWith follow document = document
  decodes : ∀ location, decodeNode h r location document = .ok copy
  copied : Copied h v copy
  equal : ∀ n, Nests h n v → h.equalTo n v copy = true
  equalBack : ∀ n, h.equalTo n copy v = true

theorem exists_encodeThrough_eq (h : Heap) (n : Nat) :
    ∃ onLink, encodeThrough h n = encodeWith h onLink := by
  cases n with
  | zero => exact ⟨_, rfl⟩
  | succ n => exact ⟨_, rfl⟩

theorem roundTrip_text {v : Value} {s : String} (hv : v.text? = some s) : RoundTrip h r v v v := by
  have hcases := text_cases hv
  have hequal (n : Nat) : h.equalTo n v v = true := by
    obtain ⟨onLink, hequal⟩ := exists_equalTo_eq h n
    rw [hequal]
    rw [equalWith_texts h onLink hv hv, beq_self_eq_true]
  refine ⟨fun n _ => ?_, fun follow => ?_, fun location => ?_, .same v, fun n _ => hequal n, hequal⟩
  · obtain ⟨onLink, hthrough⟩ := exists_encodeThrough_eq h n
    rw [hthrough]
    rcases hcases with rfl | ⟨handle, member, rfl⟩ <;> rfl
  · rcases hcases with rfl | ⟨handle, member, rfl⟩ <;> rfl
  · rcases hcases with rfl | ⟨handle, member, rfl⟩ <;> rfl

theorem roundTrip_pattern {handle : Option Nat} {source : String} {p : Pattern}
    (compiled : Pattern.ofSource source .off = .ok p) :
    RoundTrip h r (.object handle (.pattern p)) (tagged .regexp (.str p.source))
      (.object none (.pattern p)) := by
  have hcompiled : Pattern.ofSource p.source .off = .ok p := by
    rw [source_of_ofSource compiled, compiled]
  have hequal (n : Nat) (handle handle' : Option Nat) :
      h.equalTo n (.object handle (.pattern p)) (.object handle' (.pattern p)) = true := by
    obtain ⟨onLink, hequal⟩ := exists_equalTo_eq h n
    rw [hequal]
    exact beq_self_eq_true p
  refine ⟨fun n _ => ?_, fun follow => unfoldWith_tagged .regexp rfl, fun location => ?_,
    .pattern handle p, fun n _ => hequal n handle none, fun n => hequal n none handle⟩
  · obtain ⟨onLink, hthrough⟩ := exists_encodeThrough_eq h n
    rw [hthrough]
    rfl
  · rw [decodeNode_tagged, decodePayload_source, decodePattern, hcompiled]

theorem roundTrip_predicate {p name : Value} (callable : p.isCallable = true)
    (itself : h.equal p p = true) (named : p.predicateName? = some name)
    (registered : r.find? h name = some p) : RoundTrip h r p (tagged .predicate name) p := by
  have hequal (n : Nat) : h.equalTo n p p = true := by
    obtain ⟨onLink, hequal⟩ := exists_equalTo_eq h n
    rw [hequal, ← equal_callable h onLink callable]
    exact itself
  refine ⟨fun n _ => ?_, fun follow => ?_, fun location => ?_, .same p, fun n _ => hequal n, hequal⟩
  · obtain ⟨onLink, hthrough⟩ := exists_encodeThrough_eq h n
    rw [hthrough, encodeWith_callable callable, ofPredicate, named, Option.getD_some]
  · exact unfoldWith_tagged .predicate (unfoldWith_hashable (hashable_of_find? registered))
  · rw [decodeNode_tagged]
    exact decodePayload_predicate registered location

section

variable {n : Nat} {items : List Value} {entries : List (Value × Value)}
  {document f g : Value → Value}

theorem encodeThrough_items (tag : DocumentTag) (build : List Value → Value)
    (hencode : ∀ onLink, encodeWith h onLink (build items)
      = encodeAll h onLink items >>= fun l => pure (tagged tag (.list l)))
    (each : ∀ item ∈ items, encodeThrough h n item = .ok (document item)) :
    encodeThrough h n (build items) = .ok (tagged tag (.list (items.map document))) := by
  obtain ⟨onLink, hthrough⟩ := exists_encodeThrough_eq h n
  rw [hthrough] at each ⊢
  have hitems : encodeAll h onLink (items.map id) = .ok (items.map document) :=
    encodeAll_map each
  rw [List.map_id] at hitems
  rw [hencode, hitems]
  rfl

theorem encodeThrough_mapping (named : Named entries)
    (each : ∀ e ∈ entries, encodeThrough h n e.2 = .ok (document e.2)) :
    encodeThrough h n (.mapping entries)
      = .ok (tagged .obj (.mapping (entries.map fun e => (e.1, document e.2)))) := by
  have hentries : entries.map (fun e => (e.1, e.2)) = entries := List.map_id entries
  have hnamed : Named (entries.map fun e => (e.1, e.2)) := hentries.symm ▸ named
  obtain ⟨onLink, hthrough⟩ := exists_encodeThrough_eq h n
  rw [hthrough] at each ⊢
  have hall : encodeEntries h onLink (entries.map fun e => (e.1, e.2))
      = .ok (entries.map fun e => (e.1, document e.2)) := encodeEntries_map named.texts each
  rw [hentries] at hall
  rw [encodeWith, hall]
  show Except.ok (tagged .obj (.mapping (h.ofPairs _))) = _
  rw [(hnamed.map fun e => document e.2).ofPairs_eq]

theorem equalTo_items (build : List Value → Value)
    (hequal : ∀ onLink l l', equalWith h onLink (build l) (build l') = equalLists h onLink l l')
    (each : ∀ item ∈ items, h.equalTo n (f item) (g item) = true) :
    h.equalTo n (build (items.map f)) (build (items.map g)) = true := by
  obtain ⟨onLink, hlink⟩ := exists_equalTo_eq h n
  rw [hlink] at each ⊢
  rw [hequal]
  exact equalLists_map h onLink each

theorem equalTo_mapping (named : Named entries)
    (each : ∀ e ∈ entries, h.equalTo n (f e.2) (g e.2) = true) :
    h.equalTo n (.mapping (entries.map fun e => (e.1, f e.2)))
      (.mapping (entries.map fun e => (e.1, g e.2))) = true := by
  have hentries : entries.map (fun e => (e.1, e.2)) = entries := List.map_id entries
  have hnamed : Named (entries.map fun e => (e.1, e.2)) := hentries.symm ▸ named
  obtain ⟨onLink, hlink⟩ := exists_equalTo_eq h n
  rw [hlink] at each ⊢
  exact (hnamed.map fun e => g e.2).equalWith_mapping h onLink each

end

/-- Lists and unions, which differ only in their tags. -/
theorem roundTrip_items (tag : DocumentTag) (build : List Value → Value) {items : List Value}
    {document copy : Value → Value}
    (hencode : ∀ onLink, encodeWith h onLink (build items)
      = encodeAll h onLink items >>= fun l => pure (tagged tag (.list l)))
    (hdecode : ∀ location l, decodePayload h r location (.str tag.name) (.list l)
      = decodeItems h r location 0 l >>= fun l => pure (build l))
    (hequal : ∀ onLink l l', equalWith h onLink (build l) (build l') = equalLists h onLink l l')
    (hnests : ∀ n, Nests h n (build items) → ∀ item ∈ items, Nests h n item)
    (hcopied : Copied h (build items) (build (items.map copy)))
    (each : ∀ item ∈ items, RoundTrip h r item (document item) (copy item)) :
    RoundTrip h r (build items) (tagged tag (.list (items.map document)))
      (build (items.map copy)) := by
  have hid : items.map id = items := List.map_id items
  refine ⟨fun n hn => ?_, fun follow => unfoldWith_tagged tag ?_, fun location => ?_, hcopied,
    fun n hn => ?_, fun n => ?_⟩
  · exact encodeThrough_items tag build hencode fun item hitem =>
      (each item hitem).encodes n (hnests n hn item hitem)
  · rw [unfoldWith, unfoldAll_eq fun d hd => ?_]
    obtain ⟨item, hitem, rfl⟩ := List.mem_map.mp hd
    exact (each item hitem).linkFree follow
  · have hitems := decodeItems_map (r := r) (fun item hitem => (each item hitem).decodes) location 0
    rw [decodeNode_tagged, hdecode, hitems]
    rfl
  · have hitems := equalTo_items (f := id) (g := copy) build hequal fun item hitem =>
      (each item hitem).equal n (hnests n hn item hitem)
    rwa [hid] at hitems
  · have hitems := equalTo_items (f := copy) (g := id) build hequal fun item hitem =>
      (each item hitem).equalBack n
    rwa [hid] at hitems

theorem copied_map {items : List Value} {document copy : Value → Value}
    (each : ∀ item ∈ items, RoundTrip h r item (document item) (copy item)) (i : Nat)
    (item item' : Value) (hi : items[i]? = some item) (hi' : (items.map copy)[i]? = some item') :
    Copied h item item' := by
  rw [List.getElem?_map, hi] at hi'
  cases hi'
  exact (each item (List.mem_of_getElem? hi)).copied

theorem roundTrip_mapping {entries : List (Value × Value)} {document copy : Value → Value}
    (named : Named entries)
    (each : ∀ e ∈ entries, RoundTrip h r e.2 (document e.2) (copy e.2)) :
    RoundTrip h r (.mapping entries)
      (tagged .obj (.mapping (entries.map fun e => (e.1, document e.2))))
      (.mapping (entries.map fun e => (e.1, copy e.2))) := by
  have hnests (n : Nat) (hn : Nests h n (.mapping entries)) (e : Value × Value)
      (he : e ∈ entries) : Nests h n e.2 :=
    hn.part (k := .object entries) rfl (Kind.mem_parts_object he)
  have hid : entries.map (fun e => (e.1, id e.2)) = entries := List.map_id entries
  refine ⟨fun n hn => ?_, fun follow => unfoldWith_tagged .obj ?_, fun location => ?_,
    .mapping ?_ fun i e e' hi hi' => ?_, fun n hn => ?_, fun n => ?_⟩
  · exact encodeThrough_mapping named fun e he => (each e he).encodes n (hnests n hn e he)
  · rw [unfoldWith, unfoldEntries_eq fun x hx => ?_]
    obtain ⟨e, he, rfl⟩ := List.mem_map.mp hx
    exact (each e he).linkFree follow
  · have hall : decodeEntries h r location (entries.map fun e => (e.1, document e.2))
        = .ok (entries.map fun e => (e.1, copy e.2)) :=
      decodeEntries_map (fun e he => (each e he).decodes) location
    rw [decodeNode_tagged, decodePayload, ofValue?_name]
    dsimp only
    rw [hall]
    rfl
  · rw [List.map_map]
    rfl
  · rw [List.getElem?_map, hi] at hi'
    cases hi'
    exact (each e (List.mem_of_getElem? hi)).copied
  · have hall := equalTo_mapping (f := id) (g := copy) named fun e he =>
      (each e he).equal n (hnests n hn e he)
    rwa [hid] at hall
  · have hall := equalTo_mapping (f := copy) (g := id) named fun e he => (each e he).equalBack n
    rwa [hid] at hall

/-- A copy of a shared container is a container of its kind. -/
theorem container_of_copied {a : Nat} {copy : Value} (hc : Copied h (h.cell a) copy) :
    (∃ items, copy = .list items) ∨ ∃ entries, copy = .mapping entries := by
  rcases cell_cases h a with ⟨items, hcell⟩ | ⟨entries, hcell⟩ <;> rw [hcell] at hc
  · cases hc with
    | same | list => exact .inl ⟨_, rfl⟩
  · cases hc with
    | same | mapping => exact .inr ⟨_, rfl⟩

theorem roundTrip_link {a : Nat} {document copy : Value}
    (shared : RoundTrip h r (h.cell a) document copy) : RoundTrip h r (.link a) document copy := by
  refine ⟨fun n hn => ?_, shared.linkFree, shared.decodes, .link shared.copied, fun n hn => ?_,
    fun n => equalTo_link_right h (container_of_copied shared.copied) (shared.equalBack n)⟩
  · obtain ⟨m, rfl, hcell⟩ := hn.cell
    exact shared.encodes m hcell
  · obtain ⟨m, rfl, hcell⟩ := hn.cell
    exact equalTo_link h (shared.equal m hcell)

/-- Every portable schema has a document that gives it back. -/
theorem exists_roundTrip {v : Value} (hv : Portable h r v) :
    ∃ document copy, RoundTrip h r v document copy := by
  induction hv with
  | @text v s text => exact ⟨v, v, roundTrip_text text⟩
  | @pattern handle source p compiled => exact ⟨_, _, roundTrip_pattern compiled⟩
  | @predicate p name callable itself named registered =>
    exact ⟨_, _, roundTrip_predicate callable itself named registered⟩
  | @list items each ih =>
    choose! document copy hround using ih
    refine ⟨_, _, roundTrip_items .array .list (fun _ => rfl) (fun location l => ?_)
      (fun _ _ _ => rfl) (fun n hn item hitem => hn.part (k := .array items) rfl hitem)
      (.list (List.length_map ..).symm (copied_map hround)) hround⟩
    rw [decodePayload, ofValue?_name]
  | @union members each ih =>
    choose! document copy hround using ih
    refine ⟨_, _, roundTrip_items .union .union (fun _ => rfl) (fun location l => ?_)
      (fun _ _ _ => rfl) (fun n hn item hitem => hn.part (k := .union members) rfl hitem)
      (.union (List.length_map ..).symm (copied_map hround)) hround⟩
    rw [decodePayload, ofValue?_name]
  | @mapping entries named each ih =>
    have hparts : ∀ part ∈ entries.map Prod.snd,
        ∃ document copy, RoundTrip h r part document copy := by
      intro part hpart
      obtain ⟨e, he, rfl⟩ := List.mem_map.mp hpart
      exact ih e he
    choose! document copy hround using hparts
    exact ⟨_, _, roundTrip_mapping named fun e he => hround e.2 (List.mem_map.mpr ⟨e, he, rfl⟩)⟩
  | @link a shared ih =>
    obtain ⟨document, copy, hround⟩ := ih
    exact ⟨document, copy, roundTrip_link hround⟩

/-- A portable schema has a document, and decoding the document gives a schema that equals it,
with the same members, elements and names in the same order. -/
theorem decode_encode (others : List (Value × Value)) {schema : Value}
    (hp : Portable h (.extended h others) schema) :
    ∃ document copy, encode h schema = .ok document ∧
      decode h (.extended h others) document = .ok copy ∧ Copied h schema copy ∧
      h.equal schema copy = true ∧ h.equal copy schema = true := by
  have hw := wellFormed_of_portable hp
  obtain ⟨document, copy, hround⟩ := exists_roundTrip hp
  refine ⟨document, copy, hround.encodes _ (nests_of_wellFormed hw (Nat.le_refl _)), ?_,
    hround.copied, hround.equal _ (nests_of_wellFormed hw (by omega)), hround.equalBack _⟩
  have hunfold : h.unfold document = document := hround.linkFree _
  rw [decode, hunfold]
  exact hround.decodes []

/-! ## An example -/

def noteHeap : Heap := .ofCells #[.list [.str "number"]]

def noteCheck : Value := .object (some 0) (.function (some "is_null") "function" ⟨["v"], 0, false, []⟩ 0 [])

/-- A predicate that takes the place of a built-in one. -/
def noteChecks : List (Value × Value) := [(.str "is_null", noteCheck)]

def notePattern : Value :=
  .object (some 1) (.pattern ⟨"^x", { Pattern.Flags.off with unicode := true }⟩)

/-- Its names are those of a tagged node, and it holds one list twice. -/
def noteSchema : Value :=
  .mapping [(.str "type", .union [noteCheck, .check .integer]),
    (.str "schema", .list [notePattern, .link 0, .link 0])]

theorem portable_noteSchema : Portable noteHeap (.extended noteHeap noteChecks) noteSchema := by
  have own : Portable noteHeap (.extended noteHeap noteChecks) noteCheck :=
    .predicate rfl rfl rfl rfl
  have integer : Portable noteHeap (.extended noteHeap noteChecks) (.check .integer) :=
    .predicate rfl rfl rfl rfl
  have pattern : Portable noteHeap (.extended noteHeap noteChecks) notePattern :=
    .pattern "^x" rfl
  have shared : Portable noteHeap (.extended noteHeap noteChecks) (.link 0) :=
    .link (.list (List.forall_mem_singleton.mpr (.text rfl)))
  have named : Named [(.str "type", .union [noteCheck, .check .integer]),
      (.str "schema", .list [notePattern, .link 0, .link 0])] := by
    refine ⟨?_, ?_⟩
    · exact List.forall_mem_cons.mpr ⟨⟨"type", rfl⟩, List.forall_mem_singleton.mpr ⟨"schema", rfl⟩⟩
    · simp
  refine .mapping named (List.forall_mem_cons.mpr ⟨?_, List.forall_mem_singleton.mpr ?_⟩)
  · exact .union (List.forall_mem_cons.mpr ⟨own, List.forall_mem_singleton.mpr integer⟩)
  · exact .list (List.forall_mem_cons.mpr
      ⟨pattern, List.forall_mem_cons.mpr ⟨shared, List.forall_mem_singleton.mpr shared⟩⟩)

theorem decode_encode_noteSchema :
    Portable noteHeap (.extended noteHeap noteChecks) noteSchema ∧
      ∃ document copy, encode noteHeap noteSchema = .ok document ∧
        decode noteHeap (.extended noteHeap noteChecks) document = .ok copy ∧
        Copied noteHeap noteSchema copy ∧ noteHeap.equal noteSchema copy = true ∧
        noteHeap.equal copy noteSchema = true :=
  ⟨portable_noteSchema, decode_encode noteChecks portable_noteSchema⟩

end Conform
