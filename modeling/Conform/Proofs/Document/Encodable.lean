import Conform.Proofs.Document.Meaning
import Conform.Proofs.Schema.Nesting
import Conform.Proofs.Value.Order
/-!
# Which schemas have documents

An acyclic schema has a document just if it is well-formed, and the document is made of texts, lists
and mappings; writing any other refuses a node that is of no kind. Matching tells kinds apart on its
own, and comes to the same: it never complains of a well-formed schema by itself. Main statement:
`encodable_iff_wellFormed`.
-/

set_option autoImplicit false

namespace Conform

open Document

variable {h : Heap}

/-! ## Documents of texts -/

/-- A value of texts, lists, and mappings with texts as keys. -/
inductive Textual : Value → Prop
  | text {v : Value} {s : String} (text : v.text? = some s) : Textual v
  | list {items : List Value} (each : ∀ item ∈ items, Textual item) : Textual (.list items)
  | mapping {entries : List (Value × Value)} (keys : ∀ e ∈ entries, ∃ name, e.1 = .str name)
      (each : ∀ e ∈ entries, Textual e.2) : Textual (.mapping entries)

theorem textual_tagged (tag : DocumentTag) {payload : Value} (hp : Textual payload) :
    Textual (tagged tag payload) := by
  refine .mapping ?_ ?_
  · exact List.forall_mem_cons.mpr ⟨⟨_, rfl⟩, List.forall_mem_singleton.mpr ⟨_, rfl⟩⟩
  · exact List.forall_mem_cons.mpr ⟨.text rfl, List.forall_mem_singleton.mpr hp⟩

theorem textual_ofPairs {pairs : List (Value × Value)}
    (hp : ∀ e ∈ pairs, (∃ name, e.1 = .str name) ∧ Textual e.2) :
    Textual (.mapping (h.ofPairs pairs)) := by
  have hall := forall_ofPairs (h := h)
    (P := fun name document => (∃ text, name = .str text) ∧ Textual document)
    (fun _ _ _ _ hnew hold _ => ⟨hold.1, hnew.2⟩) hp
  exact .mapping (fun e he => (hall e he).1) fun e he => (hall e he).2

/-- Predicates within a schema carry texts as names, or none. -/
def NamedByTexts (h : Heap) (schema : Value) : Prop :=
  ∀ node, Within h node schema → h.kind? node = some .predicate →
    ∀ name, node.predicateName? = some name → ∃ text, name.text? = some text

theorem NamedByTexts.part {schema part : Value} {k : Kind} (hn : NamedByTexts h schema)
    (hk : h.kind? schema = some k) (hp : part ∈ k.parts) : NamedByTexts h part :=
  fun node within => hn node (.inside hk hp within)

theorem textual_ofPredicate {v : Value} (hk : h.kind? v = some .predicate)
    (hn : NamedByTexts h v) : Textual (ofPredicate v) := by
  refine textual_tagged .predicate ?_
  cases hname : v.predicateName? with
  | none => exact .text rfl
  | some name =>
    obtain ⟨text, htext⟩ := hn v .here hk name hname
    exact .text htext

/-! ## Refusals -/

def Value.isBytePattern : Value → Bool
  | .object _ (.bytePattern _) => true
  | _ => false

/-- Why a schema has no document: a node within it is of no kind, patterns over bytes apart, or an
object within it has a name without a text. -/
inductive Refuses (h : Heap) (schema : Value) : Failure → Prop
  | kindless {node : Value} (within : Within h node schema) (kind : h.kind? node = none)
      (plain : node.isBytePattern = false) : Refuses h schema (.unserialisableNode node)
  | unnamed {node : Value} {entries : List (Value × Value)} {e : Value × Value}
      (within : Within h node schema) (kind : h.kind? node = some (.object entries))
      (mem : e ∈ entries) (long : e.1.isOverlongText = true) : Refuses h schema (.overlong none)

/-- A schema of a kind is refused for a name of its own or for one of its parts. -/
theorem refuses_iff_of_kind {schema : Value} {k : Kind} {failure : Failure}
    (hk : h.kind? schema = some k) :
    Refuses h schema failure ↔
      (failure = .overlong none ∧
        ∃ entries, k = .object entries ∧ ∃ e ∈ entries, e.1.isOverlongText = true) ∨
      ∃ part ∈ k.parts, Refuses h part failure := by
  constructor
  · intro hr
    cases hr with
    | kindless within kind plain =>
      cases within with
      | here => cases kind.symm.trans hk
      | inside kind' mem within =>
        cases hk.symm.trans kind'
        exact .inr ⟨_, mem, .kindless within kind plain⟩
    | unnamed within kind mem long =>
      cases within with
      | here =>
        cases hk.symm.trans kind
        exact .inl ⟨rfl, _, rfl, _, mem, long⟩
      | inside kind' mem' within =>
        cases hk.symm.trans kind'
        exact .inr ⟨_, mem', .unnamed within kind mem long⟩
  · rintro (⟨rfl, entries, rfl, e, mem, long⟩ | ⟨part, hp, hr⟩)
    · exact .unnamed .here hk mem long
    · cases hr with
      | kindless within kind plain => exact .kindless (.inside hk hp within) kind plain
      | unnamed within kind mem long => exact .unnamed (.inside hk hp within) kind mem long

theorem refuses_link_iff {a : Nat} {failure : Failure} :
    Refuses h (.link a) failure ↔ Refuses h (h.cell a) failure := by
  obtain ⟨k, hcell⟩ := Option.ne_none_iff_exists'.mp (kind?_cell_ne_none h a)
  rw [refuses_iff_of_kind hcell, refuses_iff_of_kind ((kind?_link h a).trans hcell)]

theorem refuses_iff_of_no_kind {schema : Value} {failure : Failure} (hk : h.kind? schema = none) :
    Refuses h schema failure ↔
      schema.isBytePattern = false ∧ failure = .unserialisableNode schema := by
  constructor
  · intro hr
    cases hr with
    | kindless within kind plain =>
      cases within with
      | here => exact ⟨plain, rfl⟩
      | inside kind' => cases hk.symm.trans kind'
    | unnamed within kind =>
      cases within with
      | here => cases hk.symm.trans kind
      | inside kind' => cases hk.symm.trans kind'
  · rintro ⟨plain, rfl⟩
    exact .kindless .here hk plain

/-! ## Writing -/

/-- What comes of writing a schema: where nothing is refused a document, which is of texts if the
schema is well-formed, and else one of the refusals. -/
inductive Encodes (h : Heap) (schema : Value) : Except Failure Value → Prop
  | written {document : Value} (clean : ∀ failure, ¬ Refuses h schema failure)
      (textual : WellFormed h schema → NamedByTexts h schema → Textual document) :
      Encodes h schema (.ok document)
  | refused {failure : Failure} (refuses : Refuses h schema failure) :
      Encodes h schema (.error failure)

namespace Encodes

variable {schema document : Value} {result : Except Failure Value} {failure : Failure}
  (hs : Encodes h schema result)
include hs

theorem not_refuses (he : result = .ok document) : ¬ Refuses h schema failure := by
  cases hs with
  | written clean => exact clean failure
  | refused => cases he

theorem textual (he : result = .ok document) (hw : WellFormed h schema)
    (hn : NamedByTexts h schema) : Textual document := by
  cases hs with
  | written _ textual =>
    cases he
    exact textual hw hn
  | refused => cases he

theorem refuses (he : result = .error failure) : Refuses h schema failure := by
  cases hs with
  | written => cases he
  | refused refuses =>
    cases he
    exact refuses

theorem exists_ok_iff :
    (∃ document, result = .ok document) ↔ ∀ failure, ¬ Refuses h schema failure := by
  cases hs with
  | written clean => exact iff_of_true ⟨_, rfl⟩ clean
  | refused refuses => exact iff_of_false nofun fun clean => clean _ refuses

end Encodes

section

variable {onLink : Nat → Except Failure Value}

theorem exists_of_encodeAll_eq_error {items : List Value} {failure : Failure}
    (he : encodeAll h onLink items = .error failure) :
    ∃ item ∈ items, encodeWith h onLink item = .error failure := by
  induction items with
  | nil => cases he
  | cons item items ih =>
    rw [encodeAll] at he
    rcases error_or_of_bind_eq_error he with he | ⟨first, -, he⟩
    · exact ⟨item, List.mem_cons_self .., he⟩
    rcases error_or_of_bind_eq_error he with he | ⟨others, -, he⟩
    · obtain ⟨found, hmem, hfound⟩ := ih he
      exact ⟨found, List.mem_cons_of_mem item hmem, hfound⟩
    · cases he

theorem keyText_eq_error {name : Value} {failure : Failure} (hk : h.keyText name = .error failure) :
    name.isOverlongText = true ∧ failure = .overlong none := by
  rw [Heap.keyText] at hk
  split at hk
  next hlong =>
    cases hk
    exact ⟨hlong, rfl⟩
  next => cases hk

theorem exists_of_encodeEntries_eq_error {entries : List (Value × Value)} {failure : Failure}
    (he : encodeEntries h onLink entries = .error failure) :
    ∃ e ∈ entries, e.1.isOverlongText = true ∧ failure = .overlong none ∨
      encodeWith h onLink e.2 = .error failure := by
  induction entries with
  | nil => cases he
  | cons e entries ih =>
    obtain ⟨name, part⟩ := e
    rw [encodeEntries] at he
    rcases error_or_of_bind_eq_error he with he | ⟨key, -, he⟩
    · exact ⟨_, List.mem_cons_self .., .inl (keyText_eq_error he)⟩
    rcases error_or_of_bind_eq_error he with he | ⟨first, -, he⟩
    · exact ⟨_, List.mem_cons_self .., .inr he⟩
    rcases error_or_of_bind_eq_error he with he | ⟨others, -, he⟩
    · obtain ⟨found, hmem, hfound⟩ := ih he
      exact ⟨found, List.mem_cons_of_mem _ hmem, hfound⟩
    · cases he

theorem short_of_encodeEntries {entries documents : List (Value × Value)}
    (he : encodeEntries h onLink entries = .ok documents) :
    ∀ e ∈ entries, e.1.isOverlongText = false := by
  induction entries generalizing documents with
  | nil => exact List.forall_mem_nil _
  | cons e entries ih =>
    obtain ⟨name, part⟩ := e
    rw [encodeEntries] at he
    obtain ⟨key, hkey, he⟩ := exists_of_bind_eq_ok he
    obtain ⟨first, -, he⟩ := exists_of_bind_eq_ok he
    obtain ⟨others, hothers, -⟩ := exists_of_bind_eq_ok he
    refine List.forall_mem_cons.mpr ⟨Bool.eq_false_iff.mpr fun hlong => ?_, ih hothers⟩
    rw [Heap.keyText, if_pos hlong] at hkey
    cases hkey

/-- Arrays and unions, which differ only in their tags. -/
theorem encodes_members (tag : DocumentTag) {v : Value} {k : Kind} (hk : h.kind? v = some k)
    (nameless : ∀ entries, k ≠ .object entries)
    (each : ∀ part ∈ k.parts, Encodes h part (encodeWith h onLink part)) :
    Encodes h v (do pure (tagged tag (.list (← encodeAll h onLink k.parts)))) := by
  cases hall : encodeAll h onLink k.parts with
  | error failure =>
    obtain ⟨part, hp, he⟩ := exists_of_encodeAll_eq_error hall
    exact .refused ((refuses_iff_of_kind hk).mpr (.inr ⟨part, hp, (each part hp).refuses he⟩))
  | ok documents =>
    have hparts := forall₂_of_encodeAll hall
    refine .written (fun failure hr => ?_) fun hw hn => textual_tagged tag (.list ?_)
    · rcases (refuses_iff_of_kind hk).mp hr with ⟨-, entries, hobject, -⟩ | ⟨part, hp, hr⟩
      · exact nameless entries hobject
      · obtain ⟨document, he⟩ := forall_mem_of_forall₂_right hparts.flip part hp
        exact (each part hp).not_refuses he hr
    · exact forall_mem_of_forall₂ hparts fun part hp document he =>
        (each part hp).textual he (hw.part hk hp) (hn.part hk hp)

theorem encodes_object {v : Value} {entries : List (Value × Value)}
    (hk : h.kind? v = some (.object entries))
    (each : ∀ e ∈ entries, Encodes h e.2 (encodeWith h onLink e.2)) :
    Encodes h v
      (do pure (tagged .obj (.mapping (h.ofPairs (← encodeEntries h onLink entries))))) := by
  cases hall : encodeEntries h onLink entries with
  | error failure =>
    obtain ⟨e, hmem, ⟨hlong, rfl⟩ | he⟩ := exists_of_encodeEntries_eq_error hall
    · exact .refused (.unnamed .here hk hmem hlong)
    · exact .refused ((refuses_iff_of_kind hk).mpr
        (.inr ⟨e.2, Kind.mem_parts_object hmem, (each e hmem).refuses he⟩))
  | ok documents =>
    have hparts := forall₂_of_encodeEntries hall
    refine .written (fun failure hr => ?_) fun hw hn => textual_tagged .obj (textual_ofPairs ?_)
    · rcases (refuses_iff_of_kind hk).mp hr with ⟨-, _, heq, e, hmem, hlong⟩ | ⟨part, hp, hr⟩
      · cases heq
        cases hlong.symm.trans (short_of_encodeEntries hall e hmem)
      · obtain ⟨e, hmem, rfl⟩ := List.mem_map.mp hp
        obtain ⟨d, -, he⟩ := forall_mem_of_forall₂_right hparts.flip e hmem
        exact (each e hmem).not_refuses he hr
    · refine forall_mem_of_forall₂ hparts fun e hmem d hd => ⟨⟨_, hd.1⟩, ?_⟩
      have hp : e.2 ∈ (Kind.object entries).parts := Kind.mem_parts_object hmem
      exact (each e hmem).textual hd.2 (hw.part hk hp) (hn.part hk hp)

theorem text?_of_atom {v : Value} {name : String} (hk : v.kind? = some (.atom name)) :
    v.text? = some name := by
  cases v with
  | str text =>
    cases hk
    rfl
  | object handle content =>
    cases content with
    | strMember member text =>
      cases hk
      rfl
    | _ => cases hk
  | _ => cases hk

theorem encodes_leaf {v document : Value} {k : Kind} (hk : h.kind? v = some k)
    (nameless : ∀ entries, k ≠ .object entries) (hleaf : k.parts = [])
    (ht : NamedByTexts h v → Textual document) : Encodes h v (.ok document) := by
  refine .written (fun failure hr => ?_) fun _ hn => ht hn
  rcases (refuses_iff_of_kind hk).mp hr with ⟨-, entries, hobject, -⟩ | ⟨part, hp, -⟩
  · exact nameless entries hobject
  · rw [hleaf] at hp
    cases hp

theorem encodes_ofKind {v : Value} {k : Kind} (hk : v.kind? = some k)
    (each : ∀ part ∈ k.parts, Encodes h part (encodeWith h onLink part)) :
    Encodes h v (ofKind h onLink v k) := by
  have hkind := kind?_of_kind h hk
  cases k with
  | atom name => exact encodes_leaf hkind nofun rfl fun _ => .text (text?_of_atom hk)
  | predicate => exact encodes_leaf hkind nofun rfl (textual_ofPredicate hkind)
  | pattern p => exact encodes_leaf hkind nofun rfl fun _ => textual_tagged .regexp (.text rfl)
  | array members => exact encodes_members .array hkind nofun each
  | union members => exact encodes_members .union hkind nofun each
  | object entries =>
    exact encodes_object hkind fun e he => each e.2 (Kind.mem_parts_object he)

theorem encodes_ofKindless {v : Value} (hk : h.kind? v = none) : Encodes h v (ofKindless v) := by
  have hrefuses {failure : Failure} : Refuses h v failure ↔
      v.isBytePattern = false ∧ failure = .unserialisableNode v := refuses_iff_of_no_kind hk
  unfold ofKindless
  split
  · refine .written (fun failure hr => ?_) fun hw => ?_
    · cases (hrefuses.mp hr).1
    · cases hw with
      | intro kind => cases hk.symm.trans kind
  next hplain =>
    refine .refused (hrefuses.mpr ⟨?_, rfl⟩)
    unfold Value.isBytePattern
    split
    · exact absurd rfl (hplain _ _)
    · rfl

theorem encodes_link {a : Nat} {result : Except Failure Value} (hcell : Encodes h (h.cell a) result) :
    Encodes h (.link a) result := by
  cases hcell with
  | refused refuses => exact .refused (refuses_link_iff.mpr refuses)
  | written clean textual =>
    refine .written (fun failure hr => clean failure (refuses_link_iff.mp hr)) fun hw hn => ?_
    refine textual ?_ fun node within => ?_
    · cases hw with
      | intro kind parts => exact .intro ((kind?_link h a).symm.trans kind) parts
    · rcases within_cell within with rfl | within
      · exact fun hk => absurd hk (kind?_cell_ne_predicate h a)
      · exact hn node within

/-- What comes of writing a schema, if it comes of writing what its links lead to. -/
theorem encodes_of_onLink {v : Value} (hlink : ∀ a, HasLink a v → Encodes h (.link a) (onLink a)) :
    Encodes h v (encodeWith h onLink v) := by
  induction v using Value.kind_induction with
  | step v ih =>
    cases hk : v.kind? with
    | some k =>
      rw [encodeWith_of_kind hk]
      exact encodes_ofKind hk fun part hp => ih k hk part hp fun a ha => hlink a (.part hk hp ha)
    | none =>
      rcases v.link_or with ⟨a, rfl⟩ | hne
      · exact hlink a .here
      · have hkind : h.kind? v = none := by rw [Heap.kind?, resolve_of_ne_link h hne, hk]
        rw [encodeWith_of_no_kind hk hne]
        exact encodes_ofKindless hkind

end

theorem encodes_encodeThrough {n : Nat} {v : Value} (hn : Nests h n v) :
    Encodes h v (encodeThrough h n v) := by
  induction n generalizing v with
  | zero => exact encodes_of_onLink fun a ha => absurd ha (hn a)
  | succ n ih => exact encodes_of_onLink fun a ha => encodes_link (ih (hn a ha))

theorem encodes_encode {schema : Value} (ha : h.Acyclic schema) :
    Encodes h schema (encode h schema) :=
  encodes_encodeThrough (nests_of_acyclic ha (Nat.le_refl _))

/-- By induction on how a schema is put together, which goes on for ever in no schema that is
acyclic. -/
theorem wellFormed_of_kinds {schema : Value} (ha : h.Acyclic schema)
    (hall : ∀ node, Within h node schema → h.kind? node ≠ none) : WellFormed h schema := by
  induction ha with
  | intro schema _ ih =>
    obtain ⟨k, hk⟩ := Option.ne_none_iff_exists'.mp (hall schema .here)
    exact .intro hk fun part hp =>
      ih part ⟨k, hk, hp⟩ fun node within => hall node (.inside hk hp within)

/-! ## Complaints about schemas -/

/-- Failures of the kinds that complain of a schema, or of an index beyond one. -/
def Failure.blamesSchema : Failure → Bool
  | .unsupportedNode _ => true
  | .unserialisableNode _ => true
  | .malformed _ _ => true
  | .noItem _ => true
  | .raised kind _ => kind == "SchemaDefinitionError" || kind == "IndexError"
  | _ => false

/-- If this fails, then not because of a schema. -/
def Blameless {α : Type} (x : Except Failure α) : Prop :=
  ∀ failure, x = .error failure → failure.blamesSchema = false

section

variable {α β : Type}

theorem blameless_ok (a : α) : Blameless (.ok a) := nofun

theorem blameless_error {failure : Failure} (hf : failure.blamesSchema = false) :
    Blameless (.error failure : Except Failure α) := by
  intro e he
  cases he
  exact hf

theorem Blameless.bind {x : Except Failure α} {f : α → Except Failure β} (hx : Blameless x)
    (hf : ∀ a, x = .ok a → Blameless (f a)) : Blameless (x >>= f) := by
  cases x with
  | error failure => exact blameless_error (hx failure rfl)
  | ok a => exact hf a rfl

end

theorem blameless_sorted (h : Heap) (values : List Value) : Blameless (h.sorted values) := by
  intro failure hfails
  obtain ⟨left, right, rfl, -⟩ := unordered_of_sorted hfails
  rfl

theorem blameless_truth (h : Heap) (v : Value) : Blameless (h.truth v) := by
  unfold Heap.truth
  split <;> first | exact blameless_ok _ | exact blameless_error rfl | skip
  split <;> exact blameless_ok _

theorem blameless_resolve (h : Heap) (v : Value) : Blameless (Options.resolve h v) := by
  have hentries (entries : List (Value × Value)) : Blameless (Options.ofEntries h entries) := by
    unfold Options.ofEntries
    dsimp only
    split
    · exact (blameless_sorted h _).bind fun names _ => blameless_error rfl
    split
    · exact (blameless_sorted h _).bind fun names _ => blameless_error rfl
    split <;> exact blameless_ok _
  unfold Options.resolve
  split
  · exact blameless_ok _
  · exact blameless_ok _
  split
  · exact hentries _
  · exact blameless_error rfl

theorem blameless_setting (world : World) (options : Value) :
    Blameless (world.setting options) := by
  refine (blameless_resolve world.heap options).bind fun o _ => ?_
  refine Blameless.bind ?_ fun w _ => blameless_ok _
  exact (blameless_truth world.heap o.noExcessProps).bind fun closed _ => blameless_ok _

/-- What complains of a well-formed schema in the course of a validation is a predicate, or the
reading of a property of the value. -/
theorem raises_of_blamesSchema {world : World} {schema value options : Value}
    (h : WellFormed world.heap schema) {t : Trace} {failure : Failure}
    (hfails : (world.validate schema value options t).1 = .error failure)
    (hblames : failure.blamesSchema = true) :
    ∃ s, world.setting options = .ok s ∧ Raises s s.owner schema value failure := by
  cases hs : world.setting options with
  | error _ =>
    rw [World.validate, hs] at hfails
    cases hfails
    cases (blameless_setting world options failure hs).symm.trans hblames
  | ok s =>
    obtain rfl := toWorld_of_setting hs
    refine ⟨s, rfl, ?_⟩
    rw [World.validate, hs, Validation.lift_ok, Validation.pure_bind] at hfails
    have hj := judged_validate h value t
    rw [hfails] at hj
    cases hj with
    | raised hr => exact hr

/-! ## Encodable schemas -/

/-- A schema without patterns over bytes, in which all names of objects have texts. -/
structure Plain (h : Heap) (schema : Value) : Prop where
  patterns : ∀ node, Within h node schema → node.isBytePattern = false
  names : ∀ node entries, Within h node schema → h.kind? node = some (.object entries) →
    ∀ e ∈ entries, e.1.isOverlongText = false

/-- In plain schemas there is nothing to refuse but nodes of no kind. -/
theorem Plain.refuses_iff {schema : Value} (hp : Plain h schema) {failure : Failure} :
    Refuses h schema failure ↔
      ∃ node, Within h node schema ∧ h.kind? node = none ∧
        failure = .unserialisableNode node := by
  constructor
  · intro hr
    cases hr with
    | kindless within kind => exact ⟨_, within, kind, rfl⟩
    | unnamed within kind mem long =>
      cases long.symm.trans (hp.names _ _ within kind _ mem)
  · rintro ⟨node, within, kind, rfl⟩
    exact .kindless within kind (hp.patterns node within)

theorem Plain.clean_iff {schema : Value} (hp : Plain h schema) (acyclic : h.Acyclic schema) :
    (∀ failure, ¬ Refuses h schema failure) ↔ WellFormed h schema := by
  constructor
  · exact fun clean => wellFormed_of_kinds acyclic fun node within kind =>
      clean _ (hp.refuses_iff.mpr ⟨node, within, kind, rfl⟩)
  · intro hw failure hr
    obtain ⟨node, within, kind, -⟩ := hp.refuses_iff.mp hr
    obtain ⟨k, hk⟩ := hw.exists_kind within
    cases kind.symm.trans hk

/-- An acyclic schema whose predicates carry texts as names has a document unless there is
something in it to refuse, and then one such refusal is what comes of writing it. So a plain schema
has a document just if it is well-formed, and else a node that is of no kind is refused. The
document of a well-formed schema is made of texts, lists and mappings with texts as keys. A
validation against a well-formed schema complains of the schema, or of an index, only where a
predicate or the reading of a property does. -/
theorem encodable_iff_wellFormed {world : World} {schema : Value}
    (acyclic : world.heap.Acyclic schema) (named : NamedByTexts world.heap schema) :
    ((∃ document, encode world.heap schema = .ok document) ↔
        ∀ failure, ¬ Refuses world.heap schema failure) ∧
      (∀ failure, encode world.heap schema = .error failure →
        Refuses world.heap schema failure) ∧
      (Plain world.heap schema →
        ((∃ document, encode world.heap schema = .ok document) ↔ WellFormed world.heap schema) ∧
        (¬ WellFormed world.heap schema → ∃ node, Within world.heap node schema ∧
          world.heap.kind? node = none ∧
          encode world.heap schema = .error (.unserialisableNode node))) ∧
      (WellFormed world.heap schema → ∀ document, encode world.heap schema = .ok document →
        Textual document) ∧
      (WellFormed world.heap schema → ∀ value options t failure,
        (world.validate schema value options t).1 = .error failure →
        failure.blamesSchema = true →
        ∃ s, world.setting options = .ok s ∧ Raises s s.owner schema value failure) := by
  have hencodes := encodes_encode acyclic
  have hplain (hp : Plain world.heap schema) :
      (∃ document, encode world.heap schema = .ok document) ↔ WellFormed world.heap schema :=
    hencodes.exists_ok_iff.trans (hp.clean_iff acyclic)
  refine ⟨hencodes.exists_ok_iff, fun failure => hencodes.refuses,
    fun hp => ⟨hplain hp, fun hnot => ?_⟩, fun hw document he => hencodes.textual he hw named,
    fun hw value options t failure => raises_of_blamesSchema hw⟩
  cases he : encode world.heap schema with
  | ok document => exact absurd ((hplain hp).mp ⟨document, he⟩) hnot
  | error failure =>
    obtain ⟨node, within, kind, rfl⟩ := hp.refuses_iff.mp (hencodes.refuses he)
    exact ⟨node, within, kind, rfl⟩

/-! ## An example -/

/-- A shared list, a predicate, and a number where a schema should be. -/
def oddSchema : Value := .tuple [.link 0, .check .integer, .int 3]

theorem acyclic_of_kind {schema : Value} {k : Kind} (hk : h.kind? schema = some k)
    (parts : ∀ part ∈ k.parts, h.Acyclic part) : h.Acyclic schema := by
  refine .intro schema fun part ⟨k', hk', mem⟩ => ?_
  cases hk.symm.trans hk'
  exact parts part mem

theorem acyclic_of_no_kind {schema : Value} (hk : h.kind? schema = none) : h.Acyclic schema := by
  refine .intro schema fun part ⟨k, hk', _⟩ => ?_
  cases hk.symm.trans hk'

theorem oddSchema_acyclic : parcelWorld.heap.Acyclic oddSchema := by
  have number : parcelWorld.heap.Acyclic (.str "number") :=
    acyclic_of_kind (k := .atom _) rfl nofun
  have shared : parcelWorld.heap.Acyclic (.link 0) :=
    acyclic_of_kind (k := .array _) rfl (List.forall_mem_singleton.mpr number)
  have integer : parcelWorld.heap.Acyclic (.check .integer) :=
    acyclic_of_kind (k := .predicate) rfl nofun
  have three : parcelWorld.heap.Acyclic (.int 3) := acyclic_of_no_kind rfl
  exact acyclic_of_kind (k := .array _) rfl (List.forall_mem_cons.mpr
    ⟨shared, List.forall_mem_cons.mpr ⟨integer, List.forall_mem_singleton.mpr three⟩⟩)

theorem mem_of_within_oddSchema : ∀ node, Within parcelWorld.heap node oddSchema →
    node ∈ [oddSchema, .link 0, .str "number", .check .integer, .int 3] := by
  let P (node : Value) : Prop :=
    node ∈ [oddSchema, .link 0, .str "number", .check .integer, .int 3]
  have number : ∀ node, Within parcelWorld.heap node (.str "number") → P node :=
    forall_within_of_kind (k := .atom _) rfl (by simp [P]) nofun
  have shared : ∀ node, Within parcelWorld.heap node (.link 0) → P node :=
    forall_within_of_kind (k := .array _) rfl (by simp [P]) (List.forall_mem_singleton.mpr number)
  have integer : ∀ node, Within parcelWorld.heap node (.check .integer) → P node :=
    forall_within_of_kind (k := .predicate) rfl (by simp [P]) nofun
  have three (node : Value) (hn : Within parcelWorld.heap node (.int 3)) : P node := by
    cases hn with
    | here => simp [P]
    | inside kind => cases kind
  exact forall_within_of_kind (k := .array _) rfl (List.mem_cons_self ..)
    (List.forall_mem_cons.mpr
      ⟨shared, List.forall_mem_cons.mpr ⟨integer, List.forall_mem_singleton.mpr three⟩⟩)

theorem oddSchema_named : NamedByTexts parcelWorld.heap oddSchema := by
  intro node within hk name hname
  have hnode := mem_of_within_oddSchema node within
  simp only [List.mem_cons, List.not_mem_nil, or_false] at hnode
  rcases hnode with rfl | rfl | rfl | rfl | rfl <;> cases hk
  cases hname
  exact ⟨_, rfl⟩

theorem oddSchema_plain : Plain parcelWorld.heap oddSchema := by
  have each (node : Value) (within : Within parcelWorld.heap node oddSchema) :
      node.isBytePattern = false ∧ ∀ entries, parcelWorld.heap.kind? node ≠ some (.object entries) := by
    have hnode := mem_of_within_oddSchema node within
    simp only [List.mem_cons, List.not_mem_nil, or_false] at hnode
    rcases hnode with rfl | rfl | rfl | rfl | rfl <;> exact ⟨rfl, nofun⟩
  exact ⟨fun node within => (each node within).1,
    fun node entries within kind => absurd kind ((each node within).2 entries)⟩

theorem encodable_iff_wellFormed_odd :
    parcelWorld.heap.Acyclic oddSchema ∧ NamedByTexts parcelWorld.heap oddSchema ∧
      Plain parcelWorld.heap oddSchema ∧
      ((∃ document, encode parcelWorld.heap oddSchema = .ok document) ↔
        WellFormed parcelWorld.heap oddSchema) ∧
      (¬ WellFormed parcelWorld.heap oddSchema → ∃ node,
        Within parcelWorld.heap node oddSchema ∧ parcelWorld.heap.kind? node = none ∧
        encode parcelWorld.heap oddSchema = .error (.unserialisableNode node)) :=
  have ⟨_, _, hplain, _⟩ := encodable_iff_wellFormed oddSchema_acyclic oddSchema_named
  ⟨oddSchema_acyclic, oddSchema_named, oddSchema_plain, hplain oddSchema_plain⟩

/-! ## What is written and what is not -/

def bytesOfX : Value := .object none (.bytePattern ⟨[0x78], .off, false⟩)

/-- Its only name is a fraction with too many digits. -/
def longName : Value := .mapping [(.object none (.fraction (tenTo 5000) 1), .str "number")]

theorem isOverlongText_of_fraction {num : Int} {den : Nat} (long : isOverlong num = true) :
    (Value.object none (.fraction num den)).isOverlongText = true := by
  show (isOverlong num || isOverlong den) = true
  rw [long, Bool.true_or]

theorem encode_of_long_name {name : Value} (long : name.isOverlongText = true) (schema : Value) :
    encode h (.mapping [(name, schema)]) = .error (.overlong none) := by
  have hkey : h.keyText name = .error (.overlong none) := if_pos long
  rw [encode, encodeThrough, encodeWith, encodeEntries, hkey]
  rfl

/-- A pattern over bytes, which is of no kind, has a document, though not of texts alone; and a
well-formed schema has none because of a name in it. -/
theorem encode_misses_wellFormed :
    (¬ WellFormed Heap.empty bytesOfX ∧
      encode Heap.empty bytesOfX = .ok (tagged .regexp (.object none (.bytes [0x78]))) ∧
      ¬ Textual (tagged .regexp (.object none (.bytes [0x78])))) ∧
    WellFormed Heap.empty longName ∧ encode Heap.empty longName = .error (.overlong none) := by
  have number : WellFormed Heap.empty (.str "number") := .intro (k := .atom _) rfl nofun
  have hnum : isOverlong (tenTo 5000) = true := by
    rw [isOverlong_iff, Int.natAbs_natCast]
    exact tenTo_le (by decide)
  have hname : (Value.object none (.fraction (tenTo 5000) 1)).isOverlongText = true :=
    isOverlongText_of_fraction hnum
  refine ⟨⟨fun hw => ?_, rfl, fun ht => ?_⟩, ?_, ?_⟩
  · cases hw with
    | intro kind => cases kind
  · cases ht with
    | text htext => cases htext
    | mapping _ each =>
      cases each _ (List.mem_cons_of_mem _ (List.mem_singleton_self _)) with
      | text htext => cases htext
  · exact .intro (k := .object _) rfl (List.forall_mem_singleton.mpr number)
  · exact encode_of_long_name hname (.str "number")

end Conform
