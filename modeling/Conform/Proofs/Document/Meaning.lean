import Conform.Proofs.Document.Tagged
import Conform.Proofs.Matching.Alike
/-!
# Documents keep what a schema accepts

A document keeps the source of a pattern without its flags, the name of a predicate, and the texts
of the names of an object. Where this is all that matching asks of a node, the schema that comes
back from a document passes the same tests as the one that was written, whatever containers it was
put together from.
-/

set_option autoImplicit false

namespace Conform

open Document

/-! ## Schemas that documents keep -/

/-- A node of which a document keeps all that matching asks: a predicate that is registered under
the name it carries, a pattern that finds the same texts without its flags, an object with texts
as names. -/
structure Kept (h : Heap) (r : Registry) (node : Value) : Prop where
  registered : h.kind? node = some .predicate →
    r.find? h (node.predicateName?.getD (.str "")) = some node
  unflagged : ∀ p q, h.kind? node = some (.pattern p) → Pattern.ofSource p.source .off = .ok q →
    ∀ text, p.search text = q.search text
  named : ∀ entries, h.kind? node = some (.object entries) → Named entries

/-- Patterns that find the same texts. -/
def Recompiled (h : Heap) (v v' : Value) : Prop :=
  ∃ p p', h.kind? v = some (.pattern p) ∧ h.kind? v' = some (.pattern p') ∧
    ∀ text, p.search text = p'.search text

variable {h : Heap} {r : Registry}

/-! ## Writing and reading by kind -/

/-- The document of a schema of a kind, with links left to `onLink`. -/
def Document.ofKind (h : Heap) (onLink : Nat → Except Failure Value) (v : Value) :
    Kind → Except Failure Value
  | .atom _ => .ok v
  | .predicate => .ok (ofPredicate v)
  | .pattern p => .ok (tagged .regexp (.str p.source))
  | .array members => do pure (tagged .array (.list (← encodeAll h onLink members)))
  | .union members => do pure (tagged .union (.list (← encodeAll h onLink members)))
  | .object entries => do
    pure (tagged .obj (.mapping (h.ofPairs (← encodeEntries h onLink entries))))

/-- The document of a schema of no kind, which there is of patterns over bytes. -/
def Document.ofKindless (v : Value) : Except Failure Value :=
  match v with
  | .object _ (.bytePattern p) => .ok (tagged .regexp (.object none (.bytes p.source)))
  | v => .error (.unserialisableNode v)

section

variable {onLink : Nat → Except Failure Value}

theorem encodeWith_of_kind {v : Value} {k : Kind} (hk : v.kind? = some k) :
    encodeWith h onLink v = ofKind h onLink v k := by
  cases v with
  | object handle content => cases content <;> cases hk <;> rfl
  | _ => cases hk <;> rfl

theorem encodeWith_of_no_kind {v : Value} (hk : v.kind? = none) (hl : ∀ a, v ≠ .link a) :
    encodeWith h onLink v = ofKindless v := by
  have hcallable : v.isCallable = false := by
    refine Bool.eq_false_iff.mpr fun hc => ?_
    rcases callable_cases hc with
      ⟨c, rfl⟩ | ⟨handle, f, rfl⟩ | ⟨handle, name, className, signature, code, own, rfl⟩ <;> cases hk
  cases v with
  | link a => exact absurd rfl (hl a)
  | object handle content =>
    rw [encodeWith]
    cases content with
    | strMember _ _ | pattern _ | host _ | function _ _ _ _ _ | set _ | frozenSet _ | proxy _ =>
      cases hk
    | bytePattern p => rfl
    | _ => simp [encodeObject, ofKindless, hcallable]
  | _ => first | rfl | cases hk

theorem text_of_keyText {k : Value} {text : String} (hk : h.keyText k = .ok text) :
    text = h.text k := by
  rw [Heap.keyText] at hk
  split at hk
  · cases hk
  · exact (Except.ok.inj hk).symm

theorem forall₂_of_encodeAll {items documents : List Value}
    (he : encodeAll h onLink items = .ok documents) :
    List.Forall₂ (fun item document => encodeWith h onLink item = .ok document) items
      documents := by
  induction items generalizing documents with
  | nil =>
    cases he
    exact .nil
  | cons item items ih =>
    rw [encodeAll] at he
    obtain ⟨first, hfirst, he⟩ := exists_of_bind_eq_ok he
    obtain ⟨others, hothers, he⟩ := exists_of_bind_eq_ok he
    cases he
    exact .cons hfirst (ih hothers)

theorem forall₂_of_encodeEntries {entries documents : List (Value × Value)}
    (he : encodeEntries h onLink entries = .ok documents) :
    List.Forall₂ (fun e d => d.1 = .str (h.text e.1) ∧ encodeWith h onLink e.2 = .ok d.2) entries
      documents := by
  induction entries generalizing documents with
  | nil =>
    cases he
    exact .nil
  | cons e entries ih =>
    obtain ⟨name, part⟩ := e
    rw [encodeEntries] at he
    obtain ⟨key, hkey, he⟩ := exists_of_bind_eq_ok he
    obtain ⟨first, hfirst, he⟩ := exists_of_bind_eq_ok he
    obtain ⟨others, hothers, he⟩ := exists_of_bind_eq_ok he
    cases he
    exact .cons ⟨congrArg Value.str (text_of_keyText hkey), hfirst⟩ (ih hothers)

end

theorem forall₂_of_decodeItems {location : List DocumentStep} {i : Nat}
    {documents copies : List Value} (hd : decodeItems h r location i documents = .ok copies) :
    List.Forall₂ (fun document copy => ∃ location, decodeNode h r location document = .ok copy)
      documents copies := by
  induction documents generalizing i copies with
  | nil =>
    cases hd
    exact .nil
  | cons document documents ih =>
    rw [decodeItems] at hd
    obtain ⟨first, hfirst, hd⟩ := exists_of_bind_eq_ok hd
    obtain ⟨others, hothers, hd⟩ := exists_of_bind_eq_ok hd
    cases hd
    exact .cons ⟨_, hfirst⟩ (ih hothers)

theorem forall₂_of_decodeEntries {location : List DocumentStep}
    {documents copies : List (Value × Value)}
    (hd : decodeEntries h r location documents = .ok copies) :
    List.Forall₂ (fun d c => d.1 = c.1 ∧ ∃ location, decodeNode h r location d.2 = .ok c.2)
      documents copies := by
  induction documents generalizing copies with
  | nil =>
    cases hd
    exact .nil
  | cons d documents ih =>
    obtain ⟨name, document⟩ := d
    rw [decodeEntries] at hd
    obtain ⟨first, hfirst, hd⟩ := exists_of_bind_eq_ok hd
    obtain ⟨others, hothers, hd⟩ := exists_of_bind_eq_ok hd
    cases hd
    exact .cons ⟨rfl, _, hfirst⟩ (ih hothers)

/-! ## There and back -/

/-- A document without links, from which only schemas come back that are the original but for the
flags of patterns. -/
structure Restores (h : Heap) (r : Registry) (v document : Value) : Prop where
  linkFree : ∀ follow, unfoldWith follow document = document
  copies : ∀ location copy, decodeNode h r location document = .ok copy →
    Congruent h (Recompiled h) v copy

theorem restores_atom {v : Value} {name : String} (hk : v.kind? = some (.atom name)) :
    Restores h r v v := by
  have hself (location : List DocumentStep) : decodeNode h r location v = .ok v := by
    cases v with
    | object handle content => cases content <;> first | rfl | cases hk
    | _ => first | rfl | cases hk
  refine ⟨fun follow => ?_, fun location copy hcopy => ?_⟩
  · cases v with
    | object handle content => cases content <;> first | rfl | cases hk
    | _ => first | rfl | cases hk
  · cases (hself location).symm.trans hcopy
    exact .same v

theorem restores_predicate {v : Value} (hk : v.kind? = some .predicate) (kept : Kept h r v) :
    Restores h r v (ofPredicate v) := by
  have hfound := kept.registered (kind?_of_kind h hk)
  refine ⟨fun follow => ?_, fun location copy hcopy => ?_⟩
  · exact unfoldWith_tagged .predicate (unfoldWith_hashable (hashable_of_find? hfound))
  · rw [ofPredicate, decodeNode_tagged, decodePayload_predicate hfound] at hcopy
    cases hcopy
    exact .same v

theorem restores_pattern {v : Value} {p : Pattern} (hk : v.kind? = some (.pattern p))
    (kept : Kept h r v) : Restores h r v (tagged .regexp (.str p.source)) := by
  have hkind := kind?_of_kind h hk
  refine ⟨fun follow => unfoldWith_tagged .regexp rfl, fun location copy hcopy => ?_⟩
  rw [decodeNode_tagged, decodePayload_source, decodePattern] at hcopy
  split at hcopy
  · next q hq =>
    cases hcopy
    exact .changed ⟨p, q, hkind, rfl, kept.unflagged p q hkind hq⟩
  · cases hcopy
  · cases hcopy

/-- Nothing comes back from the document of a pattern over bytes. -/
theorem restores_kindless {v document : Value} (he : ofKindless v = .ok document) :
    Restores h r v document := by
  unfold ofKindless at he
  split at he
  · cases he
    refine ⟨fun follow => unfoldWith_tagged .regexp rfl, fun location copy hcopy => ?_⟩
    rw [decodeNode_tagged] at hcopy
    cases hcopy
  · cases he

/-- Arrays and unions, which differ only in their tags. -/
theorem restores_members (tag : DocumentTag) (build : List Value → Value)
    (kind : List Value → Kind) {v : Value} {members documents : List Value}
    (hk : h.kind? v = some (kind members)) (hbuild : ∀ l, (build l).kind? = some (kind l))
    (hrelated : ∀ l l', List.Forall₂ (Congruent h (Recompiled h)) l l' →
      (kind l).Related (Congruent h (Recompiled h)) (kind l'))
    (hdecode : ∀ location l, decodePayload h r location (.str tag.name) (.list l)
      = decodeItems h r location 0 l >>= fun l => pure (build l))
    (each : List.Forall₂ (Restores h r) members documents) :
    Restores h r v (tagged tag (.list documents)) := by
  refine ⟨fun follow => unfoldWith_tagged tag ?_, fun location copy hcopy => ?_⟩
  · have hdocuments := forall_mem_of_forall₂_right each
    rw [unfoldWith, unfoldAll_eq fun document hd => ?_]
    obtain ⟨member, hrestores⟩ := hdocuments document hd
    exact hrestores.linkFree follow
  · rw [decodeNode_tagged, hdecode] at hcopy
    obtain ⟨copies, hcopies, hcopy⟩ := exists_of_bind_eq_ok hcopy
    cases hcopy
    have hparts : List.Forall₂ (Congruent h (Recompiled h)) members copies :=
      forall₂_trans each (forall₂_of_decodeItems hcopies)
        fun member document copy hrestores ⟨location, hd⟩ => hrestores.copies location copy hd
    exact .ofRelated hk (kind?_of_kind h (hbuild copies)) (hrelated members copies hparts)

theorem restores_entries {v : Value} {entries documents : List (Value × Value)}
    (hk : h.kind? v = some (.object entries))
    (each : List.Forall₂ (Kind.SameName (Restores h r)) entries documents) :
    Restores h r v (tagged .obj (.mapping documents)) := by
  refine ⟨fun follow => unfoldWith_tagged .obj ?_, fun location copy hcopy => ?_⟩
  · have hdocuments := forall_mem_of_forall₂_right each
    rw [unfoldWith, unfoldEntries_eq fun d hd => ?_]
    obtain ⟨e, hrestores⟩ := hdocuments d hd
    exact hrestores.2.linkFree follow
  · rw [decodeNode_tagged, decodePayload, ofValue?_name] at hcopy
    obtain ⟨copies, hcopies, hcopy⟩ := exists_of_bind_eq_ok hcopy
    cases hcopy
    have hparts : List.Forall₂ (Kind.SameName (Congruent h (Recompiled h))) entries copies :=
      forall₂_trans each (forall₂_of_decodeEntries hcopies)
        fun e d c hrestores ⟨hname, location, hd⟩ =>
          ⟨hrestores.1.trans hname, hrestores.2.copies location c.2 hd⟩
    exact .ofRelated hk rfl (.object hparts)

/-- Under names that are texts, documents come in the same order. -/
theorem restores_object {v : Value} {entries documents : List (Value × Value)}
    (hk : h.kind? v = some (.object entries)) (named : Named entries)
    (each : List.Forall₂ (fun e d => d.1 = .str (h.text e.1) ∧ Restores h r e.2 d.2) entries
      documents) : Restores h r v (tagged .obj (.mapping (h.ofPairs documents))) := by
  have hsame : List.Forall₂ (Kind.SameName (Restores h r)) entries documents := by
    have htexts := (List.forall₂_and_left entries documents).mpr ⟨named.texts, each⟩
    refine htexts.imp fun e d hed => ?_
    obtain ⟨⟨name, hname⟩, hd, hrestores⟩ := hed
    refine ⟨?_, hrestores⟩
    rw [hd, hname]
    rfl
  have hnames : entries.map Prod.fst = documents.map Prod.fst :=
    (Kind.Related.object hsame).sameShape
  have hdocuments : Named documents := by
    refine ⟨fun d hd => ?_, hnames ▸ named.distinct⟩
    obtain ⟨e, hname, -⟩ := forall_mem_of_forall₂_right each d hd
    exact ⟨_, hname⟩
  rw [hdocuments.ofPairs_eq h]
  exact restores_entries hk hsame

/-- What a document restores of a container, it restores of a link to the container. -/
theorem restores_link {a : Nat} {document : Value} (shared : Restores h r (h.cell a) document) :
    Restores h r (.link a) document := by
  refine ⟨shared.linkFree, fun location copy hcopy => ?_⟩
  cases shared.copies location copy hcopy with
  | same =>
    have hself (k : Kind) (hk : h.kind? (h.cell a) = some k) (hshape : k.SameShape k) :
        Congruent h (Recompiled h) (.link a) (h.cell a) := by
      refine .inside ((kind?_link h a).trans hk) hk hshape fun i part part' hpart hpart' => ?_
      cases hpart.symm.trans hpart'
      exact .same part
    rcases cell_cases h a with ⟨items, hcell⟩ | ⟨entries, hcell⟩
    · exact hself (.array items) (by rw [hcell]; rfl) rfl
    · exact hself (.object entries) (by rw [hcell]; rfl) rfl
  | changed here =>
    obtain ⟨p, q, hp, hq⟩ := here
    exact .changed ⟨p, q, (kind?_link h a).trans hp, hq⟩
  | inside kind kind' shape each =>
    exact .inside ((kind?_link h a).trans kind) kind' shape each

/-- The document of a node restores it if the documents of its parts restore them. -/
theorem restores_encodeWith {onLink : Nat → Except Failure Value} {v document : Value}
    (hlink : ∀ a document, v = .link a → onLink a = .ok document → Restores h r v document)
    (hparts : ∀ k, v.kind? = some k → ∀ part ∈ k.parts, ∀ document,
      encodeWith h onLink part = .ok document → Restores h r part document)
    (kept : Kept h r v) (he : encodeWith h onLink v = .ok document) : Restores h r v document := by
  cases hk : v.kind? with
  | none =>
    rcases v.link_or with ⟨a, rfl⟩ | hne
    · exact hlink a document rfl he
    · rw [encodeWith_of_no_kind hk hne] at he
      exact restores_kindless he
  | some k =>
    have hkind := kind?_of_kind h hk
    have hmembers {members documents : List Value} (hm : ∀ member ∈ members, member ∈ k.parts)
        (hdocuments : encodeAll h onLink members = .ok documents) :
        List.Forall₂ (Restores h r) members documents :=
      ((List.forall₂_and_left ..).mpr ⟨hm, forall₂_of_encodeAll hdocuments⟩).imp
        fun member document hd => hparts k hk member hd.1 document hd.2
    rw [encodeWith_of_kind hk] at he
    cases k with
    | atom name =>
      cases he
      exact restores_atom hk
    | predicate =>
      cases he
      exact restores_predicate hk kept
    | pattern p =>
      cases he
      exact restores_pattern hk kept
    | array members =>
      obtain ⟨documents, hdocuments, he⟩ := exists_of_bind_eq_ok he
      cases he
      refine restores_members .array .list .array hkind (fun _ => rfl) (fun _ _ => .array)
        (fun location l => ?_) (hmembers (fun _ hm => hm) hdocuments)
      rw [decodePayload, ofValue?_name]
    | union members =>
      obtain ⟨documents, hdocuments, he⟩ := exists_of_bind_eq_ok he
      cases he
      refine restores_members .union .union .union hkind (fun _ => rfl) (fun _ _ => .union)
        (fun location l => ?_) (hmembers (fun _ hm => hm) hdocuments)
      rw [decodePayload, ofValue?_name]
    | object entries =>
      obtain ⟨documents, hdocuments, he⟩ := exists_of_bind_eq_ok he
      cases he
      have hmem : ∀ e ∈ entries, e.2 ∈ (Kind.object entries).parts :=
        fun e he => Kind.mem_parts_object he
      refine restores_object hkind (kept.named entries hkind) ?_
      exact ((List.forall₂_and_left ..).mpr ⟨hmem, forall₂_of_encodeEntries hdocuments⟩).imp
        fun e d hd => ⟨hd.2.1, hparts _ hk e.2 hd.1 d.2 hd.2.2⟩

theorem kept_cell {a : Nat} (kept : ∀ node, Within h node (.link a) → Kept h r node) (node : Value)
    (hn : Within h node (h.cell a)) : Kept h r node := by
  rcases within_cell hn with rfl | within
  · have hlink := kept (.link a) .here
    refine ⟨fun hk => ?_, fun p q hk => ?_, fun entries hk => ?_⟩
    · exact absurd hk (kind?_cell_ne_predicate h a)
    · exact hlink.unflagged p q ((kind?_link h a).trans hk)
    · exact hlink.named entries ((kind?_link h a).trans hk)
  · exact kept node within

/-- Documents restore schemas if they restore what the links in them lead to. -/
theorem restores_of_onLink {onLink : Nat → Except Failure Value}
    (hlink : ∀ a document, (∀ node, Within h node (.link a) → Kept h r node) →
      onLink a = .ok document → Restores h r (.link a) document) {v document : Value}
    (kept : ∀ node, Within h node v → Kept h r node) (he : encodeWith h onLink v = .ok document) :
    Restores h r v document := by
  induction v using Value.kind_induction generalizing document with
  | step v ih =>
    refine restores_encodeWith (fun a document hv hd => ?_) (fun k hk part hpart document hd => ?_)
      (kept v .here) he
    · subst hv
      exact hlink a document kept hd
    · exact ih k hk part hpart
        (fun node hn => kept node (.inside (kind?_of_kind h hk) hpart hn)) hd

/-- The document of a schema restores it, if documents keep what matters of every node in it. -/
theorem restores_encodeThrough {n : Nat} {v document : Value}
    (kept : ∀ node, Within h node v → Kept h r node)
    (he : encodeThrough h n v = .ok document) : Restores h r v document := by
  induction n generalizing v document with
  | zero =>
    refine restores_of_onLink (fun a document _ hd => ?_) kept he
    cases hd
  | succ n ih =>
    refine restores_of_onLink (fun a document kept hd => ?_) kept he
    exact restores_link (ih (kept_cell kept) hd)

/-! ## Tests -/

theorem alike_of_recompiled {s : Setting} {w : Validator} {v v' : Value}
    (hr : Recompiled s.heap v v') : Alike s w v v' := by
  obtain ⟨p, q, hp, hq, hsearch⟩ := hr
  exact ⟨follows_pattern hp hq hsearch, follows_pattern hq hp fun text => (hsearch text).symm⟩

/-- A schema that comes back from its document gives the same answer to every test, or fails in
the same way, if every predicate in it is registered under its own name, no pattern finds other
texts without its flags, and the names of objects are texts. -/
theorem test_decode_encode {world : World} {r : Registry} {schema document copy : Value}
    (encodes : encode world.heap schema = .ok document)
    (decodes : decode world.heap r document = .ok copy)
    (kept : ∀ node, Within world.heap node schema → Kept world.heap r node)
    (value options : Value) (t u : Trace) :
    (world.test copy value options u).1 = (world.test schema value options t).1 := by
  have hrestores := restores_encodeThrough kept encodes
  have hunfold : world.heap.unfold document = document := hrestores.linkFree _
  rw [decode, hunfold] at decodes
  have hcopy := hrestores.copies [] copy decodes
  refine (test_eq_of_alike (fun s hs => ?_) value t u).symm
  obtain rfl := toWorld_of_setting hs
  exact alike_of_congruent (fun _ _ => alike_of_recompiled) hcopy

/-! ## An example -/

/-- Documents keep what matters of every node in a schema if they keep it of the schema itself and
of every node in its parts. -/
theorem kept_of_kind {v : Value} {k : Kind} (hk : h.kind? v = some k)
    (registered : k = .predicate → r.find? h (v.predicateName?.getD (.str "")) = some v)
    (unflagged : ∀ p, k = .pattern p → ∀ q, Pattern.ofSource p.source .off = .ok q →
      ∀ text, p.search text = q.search text)
    (named : ∀ entries, k = .object entries → Named entries)
    (hparts : ∀ part ∈ k.parts, ∀ node, Within h node part → Kept h r node) (node : Value)
    (hn : Within h node v) : Kept h r node := by
  cases hn with
  | here =>
    refine ⟨fun hv => ?_, fun p q hv => ?_, fun entries hv => ?_⟩ <;> cases hk.symm.trans hv
    · exact registered rfl
    · exact unflagged p rfl q
    · exact named entries rfl
  | inside kind mem within =>
    cases hk.symm.trans kind
    exact hparts _ mem node within

/-- A world that shares one list. -/
def parcelWorld : World := ⟨.ofCells #[.list [.str "number"]], fun _ _ => .answer .null, 0⟩

def parcelPattern : Value :=
  .object none (.pattern ⟨"^x", { Pattern.Flags.off with unicode := true }⟩)

/-- It is put together from a tuple, a frozen set and the shared list. -/
def parcelSchema : Value :=
  .mapping [(.str "size", .tuple [.check .integer, .check .integer]),
    (.str "label", .object none (.frozenSet [parcelPattern, .link 0]))]

def parcelDocument : Value :=
  tagged .obj (.mapping [
    (.str "size", tagged .array (.list [ofPredicate (.check .integer),
      ofPredicate (.check .integer)])),
    (.str "label", tagged .union (.list [tagged .regexp (.str "^x"),
      tagged .array (.list [.str "number"])]))])

def parcelCopy : Value :=
  .mapping [(.str "size", .list [.check .integer, .check .integer]),
    (.str "label", .union [parcelPattern, .list [.str "number"]])]

def parcel : Value := .mapping [(.str "size", .list [.int 2, .int 3]), (.str "label", .str "yx")]

theorem kept_parcelSchema (node : Value) (hn : Within parcelWorld.heap node parcelSchema) :
    Kept parcelWorld.heap (.extended parcelWorld.heap []) node := by
  have integer : ∀ node, Within parcelWorld.heap node (.check .integer) →
      Kept parcelWorld.heap (.extended parcelWorld.heap []) node :=
    kept_of_kind (k := .predicate) rfl (fun _ => rfl) (fun _ hp => nomatch hp) nofun nofun
  have number : ∀ node, Within parcelWorld.heap node (.str "number") →
      Kept parcelWorld.heap (.extended parcelWorld.heap []) node :=
    kept_of_kind (k := .atom _) rfl nofun (fun _ hp => nomatch hp) nofun nofun
  have pattern : ∀ node, Within parcelWorld.heap node parcelPattern →
      Kept parcelWorld.heap (.extended parcelWorld.heap []) node := by
    refine kept_of_kind (k := .pattern _) rfl nofun (fun p hp q hq text => ?_) nofun nofun
    cases hp
    cases hq
    rfl
  have shared : ∀ node, Within parcelWorld.heap node (.link 0) →
      Kept parcelWorld.heap (.extended parcelWorld.heap []) node :=
    kept_of_kind (k := .array _) rfl nofun (fun _ hp => nomatch hp) nofun
      (List.forall_mem_singleton.mpr number)
  have size : ∀ node, Within parcelWorld.heap node (.tuple [.check .integer, .check .integer]) →
      Kept parcelWorld.heap (.extended parcelWorld.heap []) node :=
    kept_of_kind (k := .array _) rfl nofun (fun _ hp => nomatch hp) nofun
      (List.forall_mem_cons.mpr ⟨integer, List.forall_mem_singleton.mpr integer⟩)
  have label : ∀ node,
      Within parcelWorld.heap node (.object none (.frozenSet [parcelPattern, .link 0])) →
      Kept parcelWorld.heap (.extended parcelWorld.heap []) node :=
    kept_of_kind (k := .union _) rfl nofun (fun _ hp => nomatch hp) nofun
      (List.forall_mem_cons.mpr ⟨pattern, List.forall_mem_singleton.mpr shared⟩)
  refine kept_of_kind (k := .object _) rfl nofun (fun _ hp => nomatch hp) (fun entries he => ?_)
    (List.forall_mem_cons.mpr ⟨size, List.forall_mem_singleton.mpr label⟩) node hn
  cases he
  refine ⟨?_, by simp⟩
  exact List.forall_mem_cons.mpr ⟨⟨"size", rfl⟩, List.forall_mem_singleton.mpr ⟨"label", rfl⟩⟩

theorem test_decode_encode_parcel :
    encode parcelWorld.heap parcelSchema = .ok parcelDocument ∧
      decode parcelWorld.heap (.extended parcelWorld.heap []) parcelDocument = .ok parcelCopy ∧
      (∀ node, Within parcelWorld.heap node parcelSchema →
        Kept parcelWorld.heap (.extended parcelWorld.heap []) node) ∧
      (parcelWorld.test parcelCopy parcel .null .start).1
        = (parcelWorld.test parcelSchema parcel .null .start).1 := by
  have encodes : encode parcelWorld.heap parcelSchema = .ok parcelDocument := rfl
  have decodes : decode parcelWorld.heap (.extended parcelWorld.heap []) parcelDocument
      = .ok parcelCopy := rfl
  exact ⟨encodes, decodes, kept_parcelSchema,
    test_decode_encode encodes decodes kept_parcelSchema parcel .null .start .start⟩

/-! ## What documents lose -/

/-- A pattern that finds any character, line ends included. -/
def anyCharacter : Value :=
  .object none (.pattern ⟨".", { Pattern.Flags.off with dotAll := true, unicode := true }⟩)

def anyOnLine : Value :=
  .object none (.pattern ⟨".", { Pattern.Flags.off with unicode := true }⟩)

/-- An object with a number for a name. -/
def firstColumn : Value := .mapping [(.int 1, .str "number")]

def columnOfText : Value := .mapping [(.str "1", .str "number")]

def defaultSetting (world : World) : Setting := ⟨world, ⟨⟨.bool false⟩, false, .own⟩⟩

/-- A line end matches a pattern and not what its document gives back, and what is under a number
is found by a schema and not by what its document gives back. -/
theorem encode_loses_flags_and_numbers :
    (encode parcelWorld.heap anyCharacter = .ok (tagged .regexp (.str ".")) ∧
      decode parcelWorld.heap (.extended parcelWorld.heap []) (tagged .regexp (.str "."))
        = .ok anyOnLine ∧
      (parcelWorld.test anyCharacter (.str "\n") .null .start).1 = .ok true ∧
      (parcelWorld.test anyOnLine (.str "\n") .null .start).1 = .ok false) ∧
    (encode parcelWorld.heap firstColumn = .ok (tagged .obj columnOfText) ∧
      decode parcelWorld.heap (.extended parcelWorld.heap []) (tagged .obj columnOfText)
        = .ok columnOfText ∧
      (parcelWorld.test firstColumn (.mapping [(.int 1, .int 5)]) .null .start).1 = .ok true ∧
      (parcelWorld.test columnOfText (.mapping [(.int 1, .int 5)]) .null .start).1
        = .ok false) := by
  have hs : parcelWorld.setting .null = .ok (defaultSetting parcelWorld) := rfl
  have htest {schema value : Value} (found : Option Mismatch)
      (hrun : (matchWithin (defaultSetting parcelWorld) 1 (defaultSetting parcelWorld).owner schema
        schema value .start).1 = .ok found) :
      (parcelWorld.test schema value .null .start).1 = .ok found.isNone :=
    World.test_of_matchWithin hs hrun
  refine ⟨⟨rfl, rfl, ?_, ?_⟩, ⟨rfl, rfl, ?_, ?_⟩⟩
  · exact htest none rfl
  · exact htest (some ⟨[], .str "\n", anyOnLine⟩) rfl
  · exact htest none rfl
  · exact htest (some ⟨[.str "1"], .undefined, .str "number"⟩) rfl

end Conform
