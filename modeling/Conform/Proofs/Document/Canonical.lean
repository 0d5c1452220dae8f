import Conform.Proofs.Document.Grammar
import Conform.Proofs.Json.UniqueKeys
import Mathlib.Tactic.Choose
/-!
# The canonical form of a document

Documents write an array as a tagged node or as a bare list. Encoding a schema that was decoded
from a document gives the document with all arrays tagged, if predicates carry the names under
which they are registered. Main statement: `encode_decode`.
-/

set_option autoImplicit false

namespace Conform

open Document

/-! ## Canonical documents -/

namespace Json

mutual

/-- A document with the bare lists among its nodes written as tagged arrays. -/
def canon : Json → Json
  | .array items => .object [("type", .str "array"), ("schema", .array (canonItems items))]
  | .object members => .object (canonTagged members)
  | node => node

def canonItems : List Json → List Json
  | [] => []
  | item :: rest => canon item :: canonItems rest

def canonMembers : List (String × Json) → List (String × Json)
  | [] => []
  | (key, node) :: rest => (key, canon node) :: canonMembers rest

/-- The members of a tagged node: what is under `schema` holds the nodes in it. -/
def canonTagged : List (String × Json) → List (String × Json)
  | [] => []
  | (key, part) :: rest =>
    (key, if key = "schema" then canonPayload part else part) :: canonTagged rest

/-- A payload is no node itself, so a list stays a list. -/
def canonPayload : Json → Json
  | .array items => .array (canonItems items)
  | .object members => .object (canonMembers members)
  | payload => payload

end

theorem canonItems_eq_map (items : List Json) : canonItems items = items.map canon := by
  induction items with
  | nil => rfl
  | cons item items ih => rw [canonItems, ih, List.map_cons]

theorem canonMembers_eq_map (members : List (String × Json)) :
    canonMembers members = members.map fun m => (m.1, canon m.2) := by
  induction members with
  | nil => rfl
  | cons m members ih => rw [canonMembers, ih, List.map_cons]

/-- The order of a tag and its payload stays as it is. -/
theorem Tagged.canon {tag payload node : Json} (ht : Tagged tag payload node) :
    Tagged tag (canonPayload payload) (canon node) := by
  cases ht with
  | tagFirst => exact .tagFirst
  | tagLast => exact .tagLast

theorem UniqueKeys.payload {tag payload node : Json} (hk : UniqueKeys isAtom node)
    (ht : Tagged tag payload node) : UniqueKeys isAtom payload := by
  cases ht with
  | tagFirst | tagLast =>
    cases hk with
    | atom of_sort => cases of_sort
    | object names each => exact each ("schema", payload) (by simp)

theorem UniqueKeys.parts {node : Json} {parts : List Json} (hk : UniqueKeys isAtom node)
    (hh : Holds node parts) : ∀ part ∈ parts, UniqueKeys isAtom part := by
  cases hh with
  | list =>
    cases hk with
    | atom of_sort => cases of_sort
    | array each => exact each
  | array tagged | union tagged =>
    cases hk.payload tagged with
    | atom of_sort => cases of_sort
    | array each => exact each
  | obj tagged =>
    cases hk.payload tagged with
    | atom of_sort => cases of_sort
    | object names each => exact List.forall_mem_map.mpr each

end Json

open Json

variable {h : Heap} {r : Registry}

/-! ## Registries -/

/-- A predicate registered under a text that is the name that it carries. -/
structure SelfNamed (h : Heap) (name p : Value) : Prop where
  callable : p.isCallable = true
  /-- Anything that has come from outside, or is built in, equals itself. -/
  itself : h.equal p p = true
  named : ∃ own text, p.predicateName? = some own ∧ own.text? = some text ∧ name.text? = some text

theorem selfNamed_check (c : Check) : SelfNamed h (.str c.name) (.check c) :=
  ⟨rfl, beq_self_eq_true c, .str c.name, c.name, rfl, rfl, rfl⟩

/-- An older name that equals a name is the same text. -/
theorem SelfNamed.rename {name p old q : Value} (hp : SelfNamed h name p)
    (hq : SelfNamed h old q) (hequal : h.equal name old = true) : SelfNamed h old p := by
  obtain ⟨own, text, hown, htext, hname⟩ := hp.named
  obtain ⟨-, text', -, -, hold⟩ := hq.named
  rw [equal_texts h hname hold, beq_iff_eq] at hequal
  subst hequal
  exact ⟨hp.callable, hp.itself, own, text, hown, htext, hold⟩

theorem selfNamed_extended {others : List (Value × Value)}
    (hothers : ∀ e ∈ others, SelfNamed h e.1 e.2) :
    ∀ e ∈ (Registry.extended h others).entries, SelfNamed h e.1 e.2 :=
  forall_extended selfNamed_check hothers fun _ _ _ _ hp hq => hp.rename hq

/-- What is found under a JSON value carries that value as its name, which is a text. -/
theorem selfNamed_of_find? (hr : ∀ e ∈ r.entries, SelfNamed h e.1 e.2) {payload : Json} {p : Value}
    (hp : r.find? h payload.toValue = some p) :
    ∃ name, payload = .str name ∧ SelfNamed h (.str name) p := by
  obtain ⟨key, hmem, hequal⟩ := exists_entry_of_find? hp
  have he := hr (key, p) hmem
  obtain ⟨own, text, hown, htext, hname⟩ := he.named
  have hpayload := text?_of_equal_text h hname hequal
  cases payload with
  | str name =>
    cases hpayload
    exact ⟨text, rfl, he.callable, he.itself, own, text, hown, htext, rfl⟩
  | _ => cases hpayload

/-! ## There and back -/

/-- A node that decodes to a schema, as its canonical form does, and what the schema is encoded
as, which equals the canonical form. -/
structure Recodes (h : Heap) (r : Registry) (node : Json) (schema document : Value) : Prop where
  decodes : ∀ location, decodeNode h r location node.toValue = .ok schema
  canonDecodes : ∀ location, decodeNode h r location (canon node).toValue = .ok schema
  wellFormed : WellFormed h schema
  itself : ∀ onLink, equalWith h onLink schema schema = true
  encodes : ∀ onLink, encodeWith h onLink schema = .ok document
  equal : ∀ onLink, equalWith h onLink document (canon node).toValue = true
  equalBack : ∀ onLink, equalWith h onLink (canon node).toValue document = true

section

variable {payload node : Json} {written : Value} {onLink : Nat → Value → Bool}

/-- A tag and a payload are written in one order, and read in both. -/
theorem equalWith_tagged (tag : DocumentTag) (ht : Tagged (.str tag.name) payload node)
    (hp : equalWith h onLink written payload.toValue = true) :
    equalWith h onLink (tagged tag written) node.toValue = true := by
  have htag : equalWith h onLink (.str tag.name) (.str tag.name) = true := by
    rw [equalWith_str, beq_self_eq_true]
  cases ht with
  | tagFirst | tagLast =>
    show (equalWith h onLink (.str tag.name) (.str tag.name) &&
      (equalWith h onLink written payload.toValue && true)) = true
    simp [htag, hp]

theorem equalWith_tagged_back (tag : DocumentTag) (ht : Tagged (.str tag.name) payload node)
    (hp : equalWith h onLink payload.toValue written = true) :
    equalWith h onLink node.toValue (tagged tag written) = true := by
  have htag : equalWith h onLink (.str tag.name) (.str tag.name) = true := by
    rw [equalWith_str, beq_self_eq_true]
  cases ht with
  | tagFirst =>
    show (equalWith h onLink (.str tag.name) (.str tag.name) &&
      (equalWith h onLink payload.toValue written && true)) = true
    simp [htag, hp]
  | tagLast =>
    show (equalWith h onLink payload.toValue written &&
      (equalWith h onLink (.str tag.name) (.str tag.name) && true)) = true
    simp [htag, hp]

end

theorem recodes_name (name : String) : Recodes h r (.str name) (.str name) (.str name) := by
  have hequal (onLink : Nat → Value → Bool) :
      equalWith h onLink (.str name) (.str name) = true := by
    rw [equalWith_str, beq_self_eq_true]
  exact ⟨fun _ => rfl, fun _ => rfl, .intro (k := .atom name) rfl nofun, hequal, fun _ => rfl,
    hequal, hequal⟩

theorem recodes_predicate {node : Json} {name : String} {p : Value}
    (tagged : Tagged (.str "predicate") (.str name) node)
    (registered : r.find? h (.str name) = some p) (hp : SelfNamed h (.str name) p) :
    ∃ document, Recodes h r node p document := by
  obtain ⟨own, text, hown, htext, hname⟩ := hp.named
  cases hname
  have htexts (onLink : Nat → Value → Bool) :
      equalWith h onLink own (.str name) = true ∧ equalWith h onLink (.str name) own = true := by
    rw [equalWith_texts h onLink htext rfl, equalWith_texts h onLink rfl htext, beq_self_eq_true]
    exact ⟨rfl, rfl⟩
  have hencode : ofPredicate p = Document.tagged .predicate own := by
    rw [ofPredicate, hown, Option.getD_some]
  refine ⟨Document.tagged .predicate own, decodeNode_predicate tagged registered,
    decodeNode_predicate tagged.canon registered, wellFormed_of_callable hp.callable,
    fun onLink => ?_, fun onLink => ?_, fun onLink => ?_, fun onLink => ?_⟩
  · rw [← equal_callable h onLink hp.callable]
    exact hp.itself
  · rw [encodeWith_callable hp.callable, hencode]
  · exact equalWith_tagged .predicate tagged.canon (htexts onLink).1
  · exact equalWith_tagged_back .predicate tagged.canon (htexts onLink).2

theorem recodes_regexp {node : Json} {source : String} {p : Pattern}
    (tagged : Tagged (.str "regexp") (.str source) node)
    (valid : Pattern.ofSource source .off = .ok p) :
    ∃ document, Recodes h r node (.object none (.pattern p)) document := by
  have hdecode : ∀ node, Tagged (.str "regexp") (.str source) node → ∀ location,
      decodeNode h r location node.toValue = .ok (.object none (.pattern p)) := by
    intro node tagged location
    rw [decodeNode_regexp tagged, decodePattern, valid]
  have hsource (onLink : Nat → Value → Bool) :
      equalWith h onLink (.str p.source) (.str source) = true ∧
        equalWith h onLink (.str source) (.str p.source) = true := by
    rw [source_of_ofSource valid, equalWith_str, beq_self_eq_true]
    exact ⟨rfl, rfl⟩
  refine ⟨Document.tagged .regexp (.str p.source), hdecode node tagged,
    hdecode _ tagged.canon, .intro (k := .pattern p) rfl (List.forall_mem_nil _),
    fun onLink => ?_, fun _ => rfl, fun onLink => ?_, fun onLink => ?_⟩
  · exact beq_self_eq_true p
  · exact equalWith_tagged .regexp tagged.canon (hsource onLink).1
  · exact equalWith_tagged_back .regexp tagged.canon (hsource onLink).2

section

variable {schema document : Json → Value} {node : Json}

/-- Arrays and unions, which differ only in their tags; bare lists are read as arrays are. -/
theorem recodes_items (tag : DocumentTag) (build : List Value → Value) {items : List Json}
    (hcanon : Tagged (.str tag.name) (.array (canonItems items)) (canon node))
    (hdecode : ∀ location, decodeNode h r location node.toValue
      = decodeItems h r location 0 (valuesOf items) >>= fun l => pure (build l))
    (hdecodeCanon : ∀ location, decodeNode h r location (canon node).toValue
      = decodeItems h r location 0 (valuesOf (canonItems items)) >>= fun l => pure (build l))
    (hwell : ∀ l : List Value, (∀ v ∈ l, WellFormed h v) → WellFormed h (build l))
    (hequal : ∀ onLink l l', equalWith h onLink (build l) (build l') = equalLists h onLink l l')
    (hencode : ∀ onLink l, encodeWith h onLink (build l)
      = encodeAll h onLink l >>= fun l => pure (tagged tag (.list l)))
    (each : ∀ item ∈ items, Recodes h r item (schema item) (document item)) :
    Recodes h r node (build (items.map schema)) (tagged tag (.list (items.map document))) := by
  have hvalues : valuesOf (canonItems items) = items.map fun item => (canon item).toValue := by
    rw [valuesOf_eq_map, canonItems_eq_map, List.map_map]
    rfl
  refine ⟨fun location => ?_, fun location => ?_, hwell _ ?_, fun onLink => ?_, fun onLink => ?_,
    fun onLink => equalWith_tagged tag hcanon ?_, fun onLink => equalWith_tagged_back tag hcanon ?_⟩
  · rw [hdecode, valuesOf_eq_map, decodeItems_map fun item hitem => (each item hitem).decodes]
    rfl
  · rw [hdecodeCanon, hvalues, decodeItems_map fun item hitem => (each item hitem).canonDecodes]
    rfl
  · exact List.forall_mem_map.mpr fun item hitem => (each item hitem).wellFormed
  · rw [hequal]
    exact equalLists_map h onLink fun item hitem => (each item hitem).itself onLink
  · rw [hencode, encodeAll_map fun item hitem => (each item hitem).encodes onLink]
    rfl
  · show equalLists h onLink _ (valuesOf (canonItems items)) = true
    rw [hvalues]
    exact equalLists_map h onLink fun item hitem => (each item hitem).equal onLink
  · show equalLists h onLink (valuesOf (canonItems items)) _ = true
    rw [hvalues]
    exact equalLists_map h onLink fun item hitem => (each item hitem).equalBack onLink

theorem recodes_array {items : List Json}
    (hcanon : Tagged (.str "array") (.array (canonItems items)) (canon node))
    (hdecode : ∀ location, decodeNode h r location node.toValue
      = decodeItems h r location 0 (valuesOf items) >>= fun l => pure (.list l))
    (each : ∀ item ∈ items, Recodes h r item (schema item) (document item)) :
    Recodes h r node (.list (items.map schema)) (tagged .array (.list (items.map document))) :=
  recodes_items .array .list hcanon hdecode (decodeNode_array hcanon)
    (fun l hl => .intro (k := .array l) rfl hl) (fun _ _ _ => rfl) (fun _ _ => rfl) each

theorem recodes_union {items : List Json} (tagged : Tagged (.str "union") (.array items) node)
    (each : ∀ item ∈ items, Recodes h r item (schema item) (document item)) :
    Recodes h r node (.union (items.map schema))
      (Document.tagged .union (.list (items.map document))) :=
  recodes_items .union .union tagged.canon (decodeNode_union tagged)
    (decodeNode_union tagged.canon) (fun l hl => .intro (k := .union l) rfl hl)
    (fun _ _ _ => rfl) (fun _ _ => rfl) each

theorem named_of_nodup {members : List (String × Json)} (names : (members.map Prod.fst).Nodup)
    (f : String × Json → Value) : Named (members.map fun m => (.str m.1, f m)) := by
  refine ⟨fun e he => ?_, ?_⟩
  · obtain ⟨m, -, rfl⟩ := List.mem_map.mp he
    exact ⟨m.1, rfl⟩
  · have hmap : (members.map fun m => (Value.str m.1, f m)).map Prod.fst
        = (members.map Prod.fst).map Value.str := by
      rw [List.map_map, List.map_map]
      rfl
    rw [hmap]
    exact List.Pairwise.map _ (fun s t hne heq => hne (Value.str.inj heq)) names

theorem recodes_obj {members : List (String × Json)} (names : (members.map Prod.fst).Nodup)
    (tagged : Tagged (.str "obj") (.object members) node)
    (each : ∀ m ∈ members, Recodes h r m.2 (schema m.2) (document m.2)) :
    Recodes h r node (.mapping (members.map fun m => (.str m.1, schema m.2)))
      (Document.tagged .obj (.mapping (members.map fun m => (.str m.1, document m.2)))) := by
  have hentries : entriesOf (canonMembers members)
      = members.map fun m => (.str m.1, (canon m.2).toValue) := by
    rw [entriesOf_eq_map, canonMembers_eq_map, List.map_map]
    rfl
  have hcanon : Tagged (.str "obj") (.object (canonMembers members)) (canon node) := tagged.canon
  have named := named_of_nodup names
  refine ⟨fun location => ?_, fun location => ?_, .intro (k := .object _) rfl ?_, fun onLink => ?_,
    fun onLink => ?_, fun onLink => equalWith_tagged .obj hcanon ?_,
    fun onLink => equalWith_tagged_back .obj hcanon ?_⟩
  · rw [decodeNode_obj tagged, entriesOf_eq_map,
      decodeEntries_map fun m hm => (each m hm).decodes]
    rfl
  · rw [decodeNode_obj hcanon, hentries, decodeEntries_map fun m hm => (each m hm).canonDecodes]
    rfl
  · rw [Kind.parts, List.map_map]
    exact List.forall_mem_map.mpr fun m hm => (each m hm).wellFormed
  · exact (named fun m => schema m.2).equalWith_mapping h onLink fun m hm =>
      (each m hm).itself onLink
  · rw [encodeWith, encodeEntries_map (fun m _ => ⟨m.1, rfl⟩) fun m hm =>
      (each m hm).encodes onLink]
    show Except.ok (Document.tagged .obj (.mapping (h.ofPairs _))) = _
    rw [(named fun m => document m.2).ofPairs_eq]
  · rw [Json.toValue, hentries]
    exact (named fun m => (canon m.2).toValue).equalWith_mapping h onLink fun m hm =>
      (each m hm).equal onLink
  · rw [Json.toValue, hentries]
    exact (named fun m => document m.2).equalWith_mapping h onLink fun m hm =>
      (each m hm).equalBack onLink

end

theorem exists_recodes (hr : ∀ e ∈ r.entries, SelfNamed h e.1 e.2) {node : Json}
    (hd : IsDocument h r node) (unique : UniqueKeys isAtom node) :
    ∃ schema document, Recodes h r node schema document := by
  induction hd with
  | name name => exact ⟨_, _, recodes_name name⟩
  | predicate tagged registered =>
    obtain ⟨name, rfl, hp⟩ := selfNamed_of_find? hr registered
    exact ⟨_, recodes_predicate tagged registered hp⟩
  | regexp tagged valid => exact ⟨_, recodes_regexp tagged valid⟩
  | @container node parts holds _ ih =>
    have hparts : ∀ part ∈ parts, ∃ schema document, Recodes h r part schema document :=
      fun part hpart => ih part hpart (unique.parts holds part hpart)
    choose! schema document each using hparts
    cases holds with
    | list => exact ⟨_, _, recodes_array .tagFirst (fun _ => rfl) each⟩
    | array tagged => exact ⟨_, _, recodes_array tagged.canon (decodeNode_array tagged) each⟩
    | union tagged => exact ⟨_, _, recodes_union tagged each⟩
    | obj tagged =>
      cases unique.payload tagged with
      | atom of_sort => cases of_sort
      | object names => exact ⟨_, _, recodes_obj names tagged (List.forall_mem_map.mp each)⟩

/-- The schema that is decoded from a document is well formed, and it is encoded as the canonical
form of the document, which is decoded to the same schema; the predicates that the caller registers
have to carry the names under which they are registered. All that is read from a text has unique
keys, by `uniqueKeys_of_read`. -/
theorem encode_decode {others : List (Value × Value)} {node : Json} {schema : Value}
    (hothers : ∀ e ∈ others, SelfNamed h e.1 e.2) (unique : UniqueKeys isAtom node)
    (decodes : decode h (.extended h others) node.toValue = .ok schema) :
    WellFormed h schema ∧
      (∃ document, encode h schema = .ok document ∧ h.equal document (canon node).toValue = true ∧
        h.equal (canon node).toValue document = true) ∧
      decode h (.extended h others) (canon node).toValue = .ok schema ∧
      h.equal schema schema = true := by
  have hd := isDocument_of_decode decodes
  obtain ⟨found, document, hround⟩ := exists_recodes (selfNamed_extended hothers) hd unique
  rw [decode_toValue] at decodes
  cases decodes.symm.trans (hround.decodes [])
  obtain ⟨onLink, hequal⟩ := exists_equalTo_eq h (2 * h.size + 2)
  have hcanon : decode h (.extended h others) (canon node).toValue = .ok schema := by
    rw [decode_toValue]
    exact hround.canonDecodes []
  refine ⟨hround.wellFormed, ⟨document, hround.encodes _, ?_, ?_⟩, hcanon, ?_⟩
  all_goals rw [Heap.equal, hequal]
  · exact hround.equal onLink
  · exact hround.equalBack onLink
  · exact hround.itself onLink

/-! ## An example -/

def evenCheck : Value := .object (some 0) (.function (some "is_even") "function" ⟨["v"], 0, false, []⟩ 0 [])

def evenChecks : List (Value × Value) := [(.str "is_even", evenCheck)]

def evenNode : Json := .object [("type", .str "predicate"), ("schema", .str "is_even")]

/-- A payload before its tag, with the names of a tagged node, and with a list of even numbers. -/
def evenDocument : Json :=
  .object [("schema", .object [("type", .array [evenNode]), ("schema", .array [])]),
    ("type", .str "obj")]

def evenSchema : Value :=
  .mapping [(.str "type", .list [evenCheck]), (.str "schema", .list [])]

theorem evenDocument_uniqueKeys : UniqueKeys isAtom evenDocument := by
  have node : UniqueKeys isAtom evenNode :=
    .object (by simp)
      (List.forall_mem_cons.mpr ⟨.atom rfl, List.forall_mem_singleton.mpr (.atom rfl)⟩)
  have payload : UniqueKeys isAtom
      (.object [("type", .array [evenNode]), ("schema", .array [])]) := by
    refine .object (by simp) (List.forall_mem_cons.mpr ⟨?_, List.forall_mem_singleton.mpr ?_⟩)
    · exact .array (List.forall_mem_singleton.mpr node)
    · exact .array (List.forall_mem_nil _)
  exact .object (by simp)
    (List.forall_mem_cons.mpr ⟨payload, List.forall_mem_singleton.mpr (.atom rfl)⟩)

theorem encode_decode_evenDocument :
    (∀ e ∈ evenChecks, SelfNamed .empty e.1 e.2) ∧ UniqueKeys isAtom evenDocument ∧
      decode .empty (.extended .empty evenChecks) evenDocument.toValue = .ok evenSchema ∧
      WellFormed .empty evenSchema ∧
      ∃ document, encode .empty evenSchema = .ok document ∧
        Heap.empty.equal document (canon evenDocument).toValue = true := by
  have hchecks : ∀ e ∈ evenChecks, SelfNamed .empty e.1 e.2 :=
    List.forall_mem_singleton.mpr ⟨rfl, rfl, .str "is_even", "is_even", rfl, rfl, rfl⟩
  have decodes : decode .empty (.extended .empty evenChecks) evenDocument.toValue
      = .ok evenSchema := rfl
  obtain ⟨hwell, ⟨document, hencode, hequal, -⟩, -⟩ :=
    encode_decode hchecks evenDocument_uniqueKeys decodes
  exact ⟨hchecks, evenDocument_uniqueKeys, decodes, hwell, document, hencode, hequal⟩

end Conform
