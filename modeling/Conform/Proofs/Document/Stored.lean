import Conform.Document.Storage
import Conform.Proofs.Document.Grammar
import Conform.Proofs.Document.RoundTrip
import Conform.Proofs.Json.RoundTrip
import Conform.Proofs.Text.Ascii
import Conform.Proofs.Text.Lines
/-!
# Schemas in files

A schema that documents can hold is written to a file as the JSON of its document, in a layout that
depends on the indentation, and the text is in ASCII whatever the names, atoms and sources are. It
is read back as an equal schema. Main statement: `load_dump`.
-/

set_option autoImplicit false

namespace Conform

open Document Json

variable {h : Heap} {r : Registry}

/-! ## Layouts -/

/-- No indentation, or a number, as which truth values count too. -/
inductive Indentation : Value → Prop
  | none : Indentation .null
  | number (n : Int) : Indentation (.int n)
  | truth (b : Bool) : Indentation (.bool b)

/-- A negative number counts as zero. -/
theorem spaced_layoutOf {indent : Value} (hi : Indentation indent) :
    (layoutOf indent).Spaced := by
  cases hi with
  | none => exact ⟨⟨1, rfl⟩, ⟨1, rfl⟩, nofun⟩
  | number n =>
    refine ⟨⟨0, rfl⟩, ⟨1, rfl⟩, fun step hstep => ⟨n.toNat, ?_⟩⟩
    cases hstep
    exact pushn_toList n.toNat
  | truth b =>
    refine ⟨⟨0, rfl⟩, ⟨1, rfl⟩, fun step hstep => ⟨b.toNat, ?_⟩⟩
    cases hstep
    cases b <;> rfl

/-! ## Documents as JSON -/

/-- The text of a name. -/
def nameText (name : Value) : String := name.text?.getD ""

theorem eq_nameText {entries : List (Value × Value)} (named : Named entries) {e : Value × Value}
    (he : e ∈ entries) : e.1 = .str (nameText e.1) := by
  obtain ⟨name, hname⟩ := named.texts e he
  rw [hname]
  rfl

def taggedJson (tag : DocumentTag) (payload : Json) : Json :=
  .object [("type", .str tag.name), ("schema", payload)]

theorem tagged_taggedJson (tag : DocumentTag) (payload : Json) :
    Tagged (.str tag.name) payload (taggedJson tag payload) := .tagFirst

theorem json_tagged {payload : Value} {j : Json} (tag : DocumentTag)
    (hp : Document.json payload = .ok j) :
    Document.json (tagged tag payload) = .ok (taggedJson tag j) := by
  show (do pure (Json.object (← Document.jsonMembers _))) = _
  rw [Document.jsonMembers, Document.jsonMembers, Document.jsonMembers, hp]
  rfl

section

variable {document : Value → Value} {json : Value → Json}

theorem jsonItems_map {items : List Value}
    (each : ∀ item ∈ items, Document.json (document item) = .ok (json item)) :
    Document.jsonItems (items.map document) = .ok (items.map json) := by
  induction items with
  | nil => rfl
  | cons item items ih =>
    obtain ⟨hitem, hitems⟩ := List.forall_mem_cons.mp each
    rw [List.map_cons, Document.jsonItems, hitem, ih hitems]
    rfl

theorem jsonMembers_map {entries : List (Value × Value)} (named : Named entries)
    (each : ∀ e ∈ entries, Document.json (document e.2) = .ok (json e.2)) :
    Document.jsonMembers (entries.map fun e => (e.1, document e.2))
      = .ok (entries.map fun e => (nameText e.1, json e.2)) := by
  induction entries with
  | nil => rfl
  | cons e entries ih =>
    obtain ⟨he, hentries⟩ := List.forall_mem_cons.mp each
    rw [List.map_cons, Document.jsonMembers, he, ih named.tail hentries,
      eq_nameText named (List.mem_cons_self ..)]
    rfl

/-- Names that are different are different texts. -/
theorem nodup_nameText {entries : List (Value × Value)} (named : Named entries)
    (f : Value × Value → Json) :
    ((entries.map fun e => (nameText e.1, f e)).map Prod.fst).Nodup := by
  have hnames : entries.map Prod.fst
      = ((entries.map fun e => (nameText e.1, f e)).map Prod.fst).map Value.str := by
    rw [List.map_map, List.map_map]
    exact List.map_congr_left fun e he => eq_nameText named he
  have hdistinct := named.distinct
  rw [hnames] at hdistinct
  exact hdistinct.of_map Value.str

end

theorem uniqueKeys_taggedJson {payload : Json} (tag : DocumentTag)
    (hp : UniqueKeys isExact payload) : UniqueKeys isExact (taggedJson tag payload) :=
  .object (by simp) (List.forall_mem_cons.mpr
    ⟨.atom rfl, List.forall_mem_singleton.mpr hp⟩)

/-! ## There and back -/

/-- A schema has a document, the JSON of which gives back a copy that equals the schema. Only texts
of another kind, which JSON does not tell apart, are not copied as they are. -/
structure Stores (h : Heap) (r : Registry) (v document : Value) (j : Json) (copy : Value) :
    Prop where
  encodes : ∀ n, Nests h n v → encodeThrough h n v = .ok document
  writes : Document.json document = .ok j
  unique : UniqueKeys isExact j
  decodes : ∀ location, decodeNode h r location j.toValue = .ok copy
  equal : ∀ n, Nests h n v → h.equalTo n v copy = true
  equalBack : ∀ n, h.equalTo n copy v = true
  lists : ∀ items, v = .list items → ∃ items', copy = .list items'
  mappings : ∀ entries, v = .mapping entries → ∃ entries', copy = .mapping entries'

theorem stores_text {v : Value} {s : String} (hv : v.text? = some s) :
    Stores h r v v (.str s) (.str s) := by
  have hequal (n : Nat) : h.equalTo n v (.str s) = true ∧ h.equalTo n (.str s) v = true := by
    obtain ⟨onLink, hlink⟩ := exists_equalTo_eq h n
    rw [hlink, equalWith_texts h onLink hv rfl, equalWith_texts h onLink rfl hv,
      beq_self_eq_true]
    exact ⟨rfl, rfl⟩
  have hround := roundTrip_text (h := h) (r := r) hv
  refine ⟨hround.encodes, ?_, .atom rfl, fun _ => rfl, fun n _ => (hequal n).1,
    fun n => (hequal n).2, ?_, ?_⟩
  all_goals rcases text_cases hv with rfl | ⟨handle, member, rfl⟩
  · rfl
  · rfl
  all_goals exact nofun

theorem stores_pattern {handle : Option Nat} {source : String} {p : Pattern}
    (compiled : Pattern.ofSource source .off = .ok p) :
    Stores h r (.object handle (.pattern p)) (tagged .regexp (.str p.source))
      (taggedJson .regexp (.str p.source)) (.object none (.pattern p)) := by
  have hround : RoundTrip h r (.object handle (.pattern p)) (tagged .regexp (.str p.source))
      (.object none (.pattern p)) := roundTrip_pattern compiled
  exact ⟨hround.encodes, json_tagged .regexp rfl, uniqueKeys_taggedJson .regexp (.atom rfl),
    hround.decodes, hround.equal, hround.equalBack, nofun, nofun⟩

/-- Texts of every kind find the same in a registry. -/
theorem find?_of_text {name : Value} {s : String} (text : name.text? = some s) :
    r.find? h name = r.find? h (.str s) := by
  have hlookup : h.lookup name r.entries = h.lookup (.str s) r.entries := by
    have hequal : (fun e : Value × Value => h.equal name e.1) = fun e => h.equal (.str s) e.1 :=
      funext fun e => equal_of_text h text e.1
    rw [Heap.lookup, Heap.lookup, Heap.find?, Heap.find?, hequal]
  rcases text_cases text with rfl | ⟨handle, member, rfl⟩
  · rfl
  · exact hlookup

theorem texts_extended {others : List (Value × Value)}
    (hothers : ∀ e ∈ others, ∃ s, e.1.text? = some s) :
    ∀ e ∈ (Registry.extended h others).entries, ∃ s, e.1.text? = some s :=
  forall_extended (P := fun name _ => ∃ s, name.text? = some s) (fun c => ⟨c.name, rfl⟩) hothers
    fun _ _ _ _ _ hold _ => hold

theorem text_of_find? (hr : ∀ e ∈ r.entries, ∃ s, e.1.text? = some s) {name p : Value}
    (registered : r.find? h name = some p) : ∃ s, name.text? = some s := by
  obtain ⟨key, hmem, hequal⟩ := exists_entry_of_find? registered
  obtain ⟨s, hs⟩ := hr (key, p) hmem
  exact ⟨s, text?_of_equal_text h hs hequal⟩

theorem stores_predicate {p name : Value} {s : String} (callable : p.isCallable = true)
    (itself : h.equal p p = true) (named : p.predicateName? = some name)
    (registered : r.find? h name = some p) (text : name.text? = some s) :
    Stores h r p (tagged .predicate name) (taggedJson .predicate (.str s)) p := by
  have hround := roundTrip_predicate callable itself named registered
  have hjson : Document.json name = .ok (.str s) := by
    rcases text_cases text with rfl | ⟨handle, member, rfl⟩ <;> rfl
  have hfound : r.find? h (.str s) = some p := by
    rw [← find?_of_text text]
    exact registered
  refine ⟨hround.encodes, json_tagged .predicate hjson,
    uniqueKeys_taggedJson .predicate (.atom rfl), decodeNode_predicate .tagFirst hfound,
    hround.equal, hround.equalBack, ?_, ?_⟩
  · rintro items rfl
    cases callable
  · rintro entries rfl
    cases callable

section

variable {document copy : Value → Value} {json : Value → Json}

/-- Lists and unions, which differ only in their tags. -/
theorem stores_items (tag : DocumentTag) (build : List Value → Value) {items : List Value}
    (hencode : ∀ onLink, encodeWith h onLink (build items)
      = encodeAll h onLink items >>= fun l => pure (tagged tag (.list l)))
    (hdecode : ∀ location (l : List Json),
      decodeNode h r location (taggedJson tag (.array l)).toValue
        = decodeItems h r location 0 (valuesOf l) >>= fun l => pure (build l))
    (hequal : ∀ onLink l l', equalWith h onLink (build l) (build l') = equalLists h onLink l l')
    (hnests : ∀ n, Nests h n (build items) → ∀ item ∈ items, Nests h n item)
    (hlists : ∀ l, build items = .list l → ∃ l', build (items.map copy) = .list l')
    (hmappings : ∀ l, build items ≠ .mapping l)
    (each : ∀ item ∈ items, Stores h r item (document item) (json item) (copy item)) :
    Stores h r (build items) (tagged tag (.list (items.map document)))
      (taggedJson tag (.array (items.map json))) (build (items.map copy)) := by
  have hid : items.map id = items := List.map_id items
  have hwrites : Document.json (.list (items.map document)) = .ok (.array (items.map json)) := by
    show (do pure (Json.array (← Document.jsonItems _))) = _
    rw [jsonItems_map fun item hitem => (each item hitem).writes]
    rfl
  refine ⟨fun n hn => ?_, json_tagged tag hwrites, uniqueKeys_taggedJson tag (.array ?_),
    fun location => ?_, fun n hn => ?_, fun n => ?_, hlists, fun l hl => absurd hl (hmappings l)⟩
  · exact encodeThrough_items tag build hencode fun item hitem =>
      (each item hitem).encodes n (hnests n hn item hitem)
  · exact List.forall_mem_map.mpr fun item hitem => (each item hitem).unique
  · rw [hdecode, valuesOf_eq_map, List.map_map]
    have hitems : decodeItems h r location 0 (items.map (Json.toValue ∘ json))
        = .ok (items.map copy) :=
      decodeItems_map (fun item hitem => (each item hitem).decodes) location 0
    rw [hitems]
    rfl
  · have hitems := equalTo_items (f := id) (g := copy) build hequal fun item hitem =>
      (each item hitem).equal n (hnests n hn item hitem)
    rwa [hid] at hitems
  · have hitems := equalTo_items (f := copy) (g := id) build hequal fun item hitem =>
      (each item hitem).equalBack n
    rwa [hid] at hitems

theorem stores_mapping {entries : List (Value × Value)} (named : Named entries)
    (each : ∀ e ∈ entries, Stores h r e.2 (document e.2) (json e.2) (copy e.2)) :
    Stores h r (.mapping entries)
      (tagged .obj (.mapping (entries.map fun e => (e.1, document e.2))))
      (taggedJson .obj (.object (entries.map fun e => (nameText e.1, json e.2))))
      (.mapping (entries.map fun e => (e.1, copy e.2))) := by
  have hnests (n : Nat) (hn : Nests h n (.mapping entries)) (e : Value × Value)
      (he : e ∈ entries) : Nests h n e.2 :=
    hn.part (k := .object entries) rfl (Kind.mem_parts_object he)
  have hid : entries.map (fun e => (e.1, id e.2)) = entries := List.map_id entries
  have hwrites : Document.json (.mapping (entries.map fun e => (e.1, document e.2)))
      = .ok (.object (entries.map fun e => (nameText e.1, json e.2))) := by
    show (do pure (Json.object (← Document.jsonMembers _))) = _
    rw [jsonMembers_map named fun e he => (each e he).writes]
    rfl
  have hentries : entriesOf (entries.map fun e => (nameText e.1, json e.2))
      = entries.map fun e => (e.1, (json e.2).toValue) := by
    rw [entriesOf_eq_map, List.map_map]
    refine List.map_congr_left fun e he => ?_
    show (Value.str (nameText e.1), (json e.2).toValue) = _
    rw [← eq_nameText named he]
  refine ⟨fun n hn => ?_, json_tagged .obj hwrites,
    uniqueKeys_taggedJson .obj (.object (nodup_nameText named fun e => json e.2) ?_),
    fun location => ?_, fun n hn => ?_, fun n => ?_, nofun, fun _ _ => ⟨_, rfl⟩⟩
  · exact encodeThrough_mapping named fun e he => (each e he).encodes n (hnests n hn e he)
  · exact List.forall_mem_map.mpr fun e he => (each e he).unique
  · have hall : decodeEntries h r location (entries.map fun e => (e.1, (json e.2).toValue))
        = .ok (entries.map fun e => (e.1, copy e.2)) :=
      decodeEntries_map (fun e he => (each e he).decodes) location
    rw [decodeNode_obj (tagged_taggedJson .obj _), hentries, hall]
    rfl
  · have hall := equalTo_mapping (f := id) (g := copy) named fun e he =>
      (each e he).equal n (hnests n hn e he)
    rwa [hid] at hall
  · have hall := equalTo_mapping (f := copy) (g := id) named fun e he => (each e he).equalBack n
    rwa [hid] at hall

end

theorem stores_link {a : Nat} {document copy : Value} {j : Json}
    (shared : Stores h r (h.cell a) document j copy) : Stores h r (.link a) document j copy := by
  have hcontainer : (∃ items, copy = .list items) ∨ ∃ entries, copy = .mapping entries :=
    (cell_cases h a).imp (fun ⟨items, hcell⟩ => shared.lists items hcell)
      fun ⟨entries, hcell⟩ => shared.mappings entries hcell
  refine ⟨fun n hn => ?_, shared.writes, shared.unique, shared.decodes, fun n hn => ?_,
    fun n => equalTo_link_right h hcontainer (shared.equalBack n), nofun, nofun⟩
  · obtain ⟨m, rfl, hcell⟩ := hn.cell
    exact shared.encodes m hcell
  · obtain ⟨m, rfl, hcell⟩ := hn.cell
    exact equalTo_link h (shared.equal m hcell)

/-- Every portable schema is stored in JSON that gives it back, if all names in the registry are
texts. -/
theorem exists_stores (hr : ∀ e ∈ r.entries, ∃ s, e.1.text? = some s) {v : Value}
    (hv : Portable h r v) : ∃ document j copy, Stores h r v document j copy := by
  induction hv with
  | text text => exact ⟨_, _, _, stores_text text⟩
  | pattern source compiled => exact ⟨_, _, _, stores_pattern compiled⟩
  | predicate callable itself named registered =>
    obtain ⟨s, text⟩ := text_of_find? hr registered
    exact ⟨_, _, _, stores_predicate callable itself named registered text⟩
  | @list items each ih =>
    choose! document json copy hstores using ih
    exact ⟨_, _, _, stores_items .array .list (fun _ => rfl)
      (fun location l => decodeNode_array (tagged_taggedJson .array _) location)
      (fun _ _ _ => rfl) (fun n hn item hitem => hn.part (k := .array items) rfl hitem)
      (fun _ _ => ⟨_, rfl⟩) nofun hstores⟩
  | @union members each ih =>
    choose! document json copy hstores using ih
    exact ⟨_, _, _, stores_items .union .union (fun _ => rfl)
      (fun location l => decodeNode_union (tagged_taggedJson .union _) location)
      (fun _ _ _ => rfl) (fun n hn item hitem => hn.part (k := .union members) rfl hitem)
      nofun nofun hstores⟩
  | @mapping entries named each ih =>
    have hparts : ∀ part ∈ entries.map Prod.snd,
        ∃ document j copy, Stores h r part document j copy := List.forall_mem_map.mpr ih
    choose! document json copy hstores using hparts
    exact ⟨_, _, _, stores_mapping named fun e he =>
      hstores e.2 (List.mem_map.mpr ⟨e, he, rfl⟩)⟩
  | link shared ih =>
    obtain ⟨document, j, copy, hstores⟩ := ih
    exact ⟨document, j, copy, stores_link hstores⟩

/-! ## Files -/

/-- JSON in any layout is found in a file as it was written. -/
theorem readDocument_text {l : JsonLayout} (hl : l.Spaced) {j : Json} (hj : UniqueKeys isExact j)
    {files : Files} {p : PathName} (stored : files.read p = .ok (Text.bytes (j.text l)))
    (what : String) : readDocument files what p = .ok j.toValue := by
  have hwritten : ∀ c ∈ (j.text l).toList, IsWritten c := by
    rw [Json.text, String.toList_ofList]
    exact isWritten_chars hl hj 0
  have hascii : ∀ c ∈ (j.text l).toList, c.toNat < 0x80 := by
    intro c hc
    rcases hwritten c hc with hplain | rfl
    · exact Nat.lt_trans hplain.2 (by decide)
    · decide
  have hlines : ∀ c ∈ (j.text l).toList, c ≠ '\r' := by
    rintro c hc rfl
    exact absurd (hwritten '\r' hc) (by decide)
  have htext : readText files p = .ok (j.text l) := by
    rw [readText, stored, ok_bind, Text.decodeUtf8_bytes hascii]
    show Except.ok (String.ofList (Text.unifyLineEnds (j.text l).toList)) = _
    rw [Text.unifyLineEnds_eq hlines, String.ofList_toList]
  rw [readDocument, htext]
  dsimp only
  rw [ok_bind, read_text hl hj]
  rfl

/-- A path at which a file can be written, after the directories above it have been made. -/
def Writable (files : Files) (path : String) : Prop :=
  ∃ made, files.makeDirectories (PathName.ofText path).names.length (PathName.ofText path).parent
      = .ok made ∧ made.acceptsFile (.ofText path) = .ok ()

/-- What a schema is dumped as does not depend on the path, and the path alone can prevent it. -/
theorem dumpSchema_eq_ok_iff {files : Files} {path text : String} {layout : JsonLayout}
    {schema document : Value} {j : Json} (encodes : encode h schema = .ok document)
    (writes : Document.json document = .ok j) :
    dumpSchema h files path layout schema = .ok text ↔
      Writable files path ∧ text = j.text layout := by
  unfold dumpSchema
  dsimp only
  constructor
  · intro dumps
    obtain ⟨made, hmade, dumps⟩ := exists_of_bind_eq_ok dumps
    rw [encodes, ok_bind, writes, ok_bind] at dumps
    obtain ⟨_, haccepts, dumps⟩ := exists_of_bind_eq_ok dumps
    cases dumps
    exact ⟨⟨made, hmade, haccepts⟩, rfl⟩
  · rintro ⟨⟨made, hmade, haccepts⟩, rfl⟩
    rw [hmade, ok_bind, encodes, ok_bind, writes, ok_bind, haccepts]
    rfl

/-- A portable schema has one text for each indentation, which is none or any number: it is dumped
as that text to every path at which a file can be written, and from every file that holds the text
a schema is loaded that equals it. -/
theorem load_dump {others : List (Value × Value)} (hothers : ∀ e ∈ others, ∃ s, e.1.text? = some s)
    {schema indent : Value} (hp : Portable h (.extended h others) schema)
    (hi : Indentation indent) :
    ∃ text copy,
      (∀ files path written, dumpSchema h files path (layoutOf indent) schema = .ok written ↔
        Writable files path ∧ written = text) ∧
      (∀ files path, files.read (.ofText path) = .ok (Text.bytes text) →
        loadSchema h files (.extended h others) path = .ok copy) ∧
      h.equal schema copy = true ∧ h.equal copy schema = true := by
  have hw := wellFormed_of_portable hp
  obtain ⟨document, j, copy, hstores⟩ := exists_stores (texts_extended hothers) hp
  have hencode := hstores.encodes _ (nests_of_wellFormed hw (Nat.le_refl _))
  refine ⟨j.text (layoutOf indent), copy, fun files path written => ?_, fun files path stored => ?_,
    hstores.equal _ (nests_of_wellFormed hw (by omega)), hstores.equalBack _⟩
  · exact dumpSchema_eq_ok_iff hencode hstores.writes
  · have hread := readDocument_text (spaced_layoutOf hi) hstores.unique stored "Schema"
    rw [loadSchema, hread, ok_bind, decode_toValue]
    exact hstores.decodes []

/-! ## An example -/

theorem ofText_name : PathName.ofText "n" = ⟨false, ["n"]⟩ := by
  have hnames : "n".splitOn "/" = ["n"] := by
    unfold String.splitOn
    rw [String.splitOnAux, String.splitOnAux]
    rfl
  have hrelative : "n".startsWith "/" = false := by simp
  rw [PathName.ofText, hnames, hrelative]
  rfl

/-- A negative number puts every part on a line of its own, and none is indented. -/
theorem load_dump_noteSchema :
    (∀ e ∈ noteChecks, ∃ s, e.1.text? = some s) ∧
      Portable noteHeap (.extended noteHeap noteChecks) noteSchema ∧
      ∃ text copy, dumpSchema noteHeap ⟨[]⟩ "n" (layoutOf (.int (-1))) noteSchema = .ok text ∧
        loadSchema noteHeap ⟨[(["n"], .file (Text.bytes text))]⟩ (.extended noteHeap noteChecks) "n"
          = .ok copy ∧
        noteHeap.equal noteSchema copy = true ∧ noteHeap.equal copy noteSchema = true := by
  have hnames : ∀ e ∈ noteChecks, ∃ s, e.1.text? = some s :=
    List.forall_mem_singleton.mpr ⟨"is_null", rfl⟩
  obtain ⟨text, copy, hdump, hload, hequal⟩ :=
    load_dump hnames portable_noteSchema (.number (-1))
  have writable : Writable ⟨[]⟩ "n" := by
    rw [Writable, ofText_name]
    exact ⟨⟨[]⟩, rfl, rfl⟩
  have stored : Files.read ⟨[(["n"], .file (Text.bytes text))]⟩ (.ofText "n")
      = .ok (Text.bytes text) := by
    rw [ofText_name]
    rfl
  exact ⟨hnames, portable_noteSchema, text, copy, (hdump _ _ _).mpr ⟨writable, rfl⟩,
    hload _ _ stored, hequal⟩

end Conform
