import Conform.Failure.Message
import Conform.Proofs.Document.Encodable
import Conform.Proofs.Document.Grammar
/-!
# The first flaw of a document

A node of a document may be flawed in itself, whatever its parts are: it has no form of a node, its
tag is unknown, or its payload is not what the tag calls for. Decoding ends at the first such node,
where a node comes before its parts and the parts of a node come in their order. The message starts
with the place of that node.
-/

set_option autoImplicit false

namespace Conform

open Document

/-! ## Nodes and their places -/

namespace Json

/-- Items with their indices, the first of which is `i`. -/
def numbered (i : Nat) (items : List Json) : List (DocumentStep × Json) :=
  (items.zipIdx i).map fun item => (.index item.2, item.1)

/-- The values of an object with their keys. -/
def keyed (members : List (String × Json)) : List (DocumentStep × Json) :=
  members.map fun m => (.key m.1, m.2)

/-- A payload of the kind that its tag calls for, with the nodes in it. -/
inductive Contains : DocumentTag → (payload : Json) → List (DocumentStep × Json) → Prop
  | array (items : List Json) : Contains .array (.array items) (numbered 0 items)
  | union (items : List Json) : Contains .union (.array items) (numbered 0 items)
  | obj (members : List (String × Json)) : Contains .obj (.object members) (keyed members)

/-- The nodes right below a node, each with the step that leads to it. -/
inductive Branches : (node : Json) → List (DocumentStep × Json) → Prop
  | list (items : List Json) : Branches (.array items) (numbered 0 items)
  | tagged {tag : DocumentTag} {payload node : Json} {branches : List (DocumentStep × Json)}
      (tagged : Tagged (.str tag.name) payload node) (contains : Contains tag payload branches) :
      Branches node branches

/-- A node of a document, by the numbers of the branches that lead to it and by their steps. Places
are in the order of words: a node comes before the nodes below it, and these follow their branches
from the first to the last. -/
inductive At : (document : Json) → (place : List Nat) → (location : List DocumentStep) →
    (node : Json) → Prop
  | root (node : Json) : At node [] [] node
  | branch {document part node : Json} {branches : List (DocumentStep × Json)} {i : Nat}
      {step : DocumentStep} {place : List Nat} {location : List DocumentStep}
      (opens : Branches document branches) (here : branches[i]? = some (step, part))
      (inside : At part place location node) : At document (i :: place) (step :: location) node

/-- A payload that is not what its tag calls for, the nodes in it left aside. -/
inductive Unfit (h : Heap) (r : Registry) : DocumentTag → (payload : Json) → DocumentFault → Prop
  | predicate {payload : Json} (unregistered : r.find? h payload.toValue = none) :
      Unfit h r .predicate payload (.unknownPredicate payload.toValue)
  | source {payload : Json} (notText : ∀ source, payload ≠ .str source) :
      Unfit h r .regexp payload .sourceNotText
  | pattern {source : String} {fault : Pattern.Fault}
      (refused : Pattern.ofSource source .off = .error fault) :
      Unfit h r .regexp (.str source) (.badPattern source fault)
  | obj {payload : Json} (notObject : ∀ members, payload ≠ .object members) :
      Unfit h r .obj payload .notMapping
  | array {payload : Json} (notList : ∀ items, payload ≠ .array items) :
      Unfit h r .array payload (.notList (.str DocumentTag.array.name))
  | union {payload : Json} (notList : ∀ items, payload ≠ .array items) :
      Unfit h r .union payload (.notList (.str DocumentTag.union.name))

/-- A node that is malformed in itself, whatever the nodes below it are. -/
inductive Flaw (h : Heap) (r : Registry) : (node : Json) → DocumentFault → Prop
  | shape {node : Json} (notName : ∀ name, node ≠ .str name)
      (notList : ∀ items, node ≠ .array items)
      (untagged : ∀ tag payload, ¬ Tagged tag payload node) :
      Flaw h r node (.notTagged node.toValue)
  | tag {node tag payload : Json} (tagged : Tagged tag payload node)
      (unknown : ∀ known : DocumentTag, tag ≠ .str known.name) :
      Flaw h r node (.unknownTag tag.toValue)
  | payload {tag : DocumentTag} {payload node : Json} {fault : DocumentFault}
      (tagged : Tagged (.str tag.name) payload node) (unfit : Unfit h r tag payload fault) :
      Flaw h r node fault

/-- A flawed node of a document, with no flawed node before it. -/
structure FirstFlaw (h : Heap) (r : Registry) (document : Json) (place : List Nat)
    (location : List DocumentStep) (node : Json) (fault : DocumentFault) : Prop where
  here : At document place location node
  flaw : Flaw h r node fault
  earlier : ∀ place' location' node', At document place' location' node' → place' < place →
    ∀ fault', ¬ Flaw h r node' fault'

def Flawless (h : Heap) (r : Registry) (document : Json) : Prop :=
  ∀ place location node, At document place location node → ∀ fault, ¬ Flaw h r node fault

end Json

open Json

variable {h : Heap} {r : Registry}

/-! ## A node is of one form -/

theorem DocumentTag.name_injective {tag tag' : DocumentTag} (hn : tag.name = tag'.name) :
    tag = tag' := by
  cases tag <;> cases tag' <;> first | rfl | exact absurd hn (by decide)

theorem Json.Tagged.unique {tag tag' payload payload' node : Json}
    (ht : Tagged tag payload node) (ht' : Tagged tag' payload' node) :
    tag = tag' ∧ payload = payload' := by
  generalize hnode : node = node' at ht'
  cases ht with
  | tagFirst =>
    cases ht' with
    | tagFirst =>
      cases hnode
      exact ⟨rfl, rfl⟩
    | tagLast => simp at hnode
  | tagLast =>
    cases ht' with
    | tagFirst => simp at hnode
    | tagLast =>
      cases hnode
      exact ⟨rfl, rfl⟩

theorem Json.Tagged.sameTag {tag tag' : DocumentTag} {payload payload' node : Json}
    (ht : Tagged (.str tag.name) payload node) (ht' : Tagged (.str tag'.name) payload' node) :
    tag = tag' ∧ payload = payload' := by
  obtain ⟨htag, hpayload⟩ := ht.unique ht'
  exact ⟨DocumentTag.name_injective (Json.str.inj htag), hpayload⟩

theorem Json.Contains.not_unfit {tag : DocumentTag} {payload : Json}
    {branches : List (DocumentStep × Json)} (hc : Contains tag payload branches)
    (fault : DocumentFault) : ¬ Unfit h r tag payload fault := by
  intro hunfit
  cases hc with
  | array items =>
    cases hunfit with
    | array notList => exact notList items rfl
  | union items =>
    cases hunfit with
    | union notList => exact notList items rfl
  | obj members =>
    cases hunfit with
    | obj notObject => exact notObject members rfl

theorem Json.Branches.not_flaw {node : Json} {branches : List (DocumentStep × Json)}
    (hb : Branches node branches) (fault : DocumentFault) : ¬ Flaw h r node fault := by
  intro hf
  cases hb with
  | list items =>
    cases hf with
    | shape _ notList _ => exact notList items rfl
    | tag tagged _ => cases tagged
    | payload tagged _ => cases tagged
  | tagged tagged contains =>
    cases hf with
    | shape _ _ untagged => exact untagged _ _ tagged
    | tag tagged' unknown => exact unknown _ (tagged'.unique tagged).1
    | payload tagged' unfit =>
      obtain ⟨rfl, rfl⟩ := tagged.sameTag tagged'
      exact contains.not_unfit _ unfit

theorem Json.Branches.unique {node : Json} {branches branches' : List (DocumentStep × Json)}
    (hb : Branches node branches) (hb' : Branches node branches') : branches = branches' := by
  cases hb with
  | list items =>
    cases hb' with
    | list => rfl
    | tagged tagged _ => cases tagged
  | tagged tagged contains =>
    cases hb' with
    | list => cases tagged
    | tagged tagged' contains' =>
      obtain ⟨rfl, rfl⟩ := tagged.sameTag tagged'
      cases contains <;> cases contains' <;> rfl

/-! ## Decoding a flawed node -/

/-- What decoding gives for a flaw: a refusal, or for a pattern that cannot be used for a reason
that is no matter of its syntax, that reason. -/
def refusal (location : List DocumentStep) : DocumentFault → Failure
  | .badPattern source (.rejected complaint position) =>
    .malformed location (.badPattern source (.rejected complaint position))
  | .badPattern _ fault => .unusablePattern fault
  | fault => .malformed location fault

theorem eq_of_refusal_blames {location : List DocumentStep} {fault : DocumentFault}
    (hb : (refusal location fault).blamesSchema = true) :
    refusal location fault = .malformed location fault := by
  unfold refusal at hb ⊢
  split
  · rfl
  · next hfault => exact absurd hb (by simp [Failure.blamesSchema])
  · rfl

theorem decodePattern_refused {source : String} {fault : Pattern.Fault}
    (refused : Pattern.ofSource source .off = .error fault) (location : List DocumentStep) :
    decodePattern location source = .error (refusal location (.badPattern source fault)) := by
  rw [decodePattern, refused]
  cases fault <;> rfl

theorem decodePayload_of_unfit {tag : DocumentTag} {payload : Json} {fault : DocumentFault}
    (hu : Unfit h r tag payload fault) (location : List DocumentStep) :
    decodePayload h r location (.str tag.name) payload.toValue
      = .error (refusal location fault) := by
  have htag : DocumentTag.ofValue? h (Json.str tag.name).toValue = some tag := ofValue?_name tag
  have flat (hitems : ∀ items, payload = .array items → tag ≠ .array ∧ tag ≠ .union)
      (hmembers : ∀ members, payload = .object members → tag ≠ .obj) :
      decodePayload h r location (.str tag.name) payload.toValue
        = decodeFlat h r location (.str tag.name) (some tag) payload.toValue :=
    decodePayload_flat htag
      (fun items hp => by simpa using hitems items hp)
      (fun members hp => by simpa using hmembers members hp) location
  cases hu with
  | predicate unregistered =>
    rw [flat (fun _ _ => by decide) (fun _ _ => by decide), decodeFlat, unregistered]
    rfl
  | source notText =>
    rw [flat (fun _ _ => by decide) (fun _ _ => by decide)]
    cases payload with
    | str source => exact absurd rfl (notText source)
    | _ => rfl
  | pattern refused =>
    rw [Json.toValue, decodePayload_source, decodePattern_refused refused]
  | obj notObject =>
    rw [flat (fun _ _ => by decide) (fun members hp => absurd hp (notObject members))]
    rfl
  | array notList =>
    rw [flat (fun items hp => absurd hp (notList items)) (fun _ _ => by decide)]
    rfl
  | union notList =>
    rw [flat (fun items hp => absurd hp (notList items)) (fun _ _ => by decide)]
    rfl

theorem decodeNode_of_flaw {node : Json} {fault : DocumentFault} (hf : Flaw h r node fault)
    (location : List DocumentStep) :
    decodeNode h r location node.toValue = .error (refusal location fault) := by
  cases hf with
  | shape notName notList untagged =>
    cases node with
    | str name => exact absurd rfl (notName name)
    | array items => exact absurd rfl (notList items)
    | object members => exact decodeNode_of_untagged untagged location
    | _ => rfl
  | @tag _ tag payload tagged unknown =>
    have htag : DocumentTag.ofValue? h tag.toValue = none := by
      cases ht : DocumentTag.ofValue? h tag.toValue with
      | none => rfl
      | some known => exact absurd (eq_str_of_ofValue? ht) (unknown known)
    rw [decodeNode_of_tagged tagged,
      decodePayload_flat htag (fun _ _ => by decide) (fun _ _ => by decide)]
    rfl
  | payload tagged unfit =>
    exact (decodeNode_of_tagged tagged location).trans (decodePayload_of_unfit unfit location)

/-! ## Decoding the branches of a node -/

/-- The schemas of branches, each at its own location. -/
def decodeBranches (h : Heap) (r : Registry) (location : List DocumentStep)
    (branches : List (DocumentStep × Json)) : Except Failure (List Value) :=
  branches.mapM fun b => decodeNode h r (location ++ [b.1]) b.2.toValue

theorem decodeBranches_cons (location : List DocumentStep) (step : DocumentStep) (part : Json)
    (branches : List (DocumentStep × Json)) :
    decodeBranches h r location ((step, part) :: branches) = (do
      let first ← decodeNode h r (location ++ [step]) part.toValue
      let others ← decodeBranches h r location branches
      pure (first :: others)) :=
  List.mapM_cons

theorem decodeItems_eq_branches (location : List DocumentStep) (i : Nat) (items : List Json) :
    decodeItems h r location i (valuesOf items)
      = decodeBranches h r location (numbered i items) := by
  induction items generalizing i with
  | nil => rfl
  | cons item items ih =>
    have hcons : numbered i (item :: items) = (.index i, item) :: numbered (i + 1) items := rfl
    rw [valuesOf, decodeItems, ih (i + 1), hcons, decodeBranches_cons]

theorem decodeEntries_eq_branches (location : List DocumentStep)
    (members : List (String × Json)) :
    decodeEntries h r location (entriesOf members)
      = (decodeBranches h r location (keyed members)).map
          ((members.map fun m => Value.str m.1).zip ·) := by
  induction members with
  | nil => rfl
  | cons m members ih =>
    obtain ⟨key, value⟩ := m
    have hkey : h.text (.str key) = key := rfl
    have hcons : keyed ((key, value) :: members) = (.key key, value) :: keyed members := rfl
    rw [entriesOf, decodeEntries, ih, hkey, hcons, decodeBranches_cons]
    cases decodeNode h r (location ++ [.key key]) value.toValue with
    | error e => rfl
    | ok copy => cases decodeBranches h r location (keyed members) <;> rfl

theorem exists_decodePayload_eq {tag : DocumentTag} {payload : Json}
    {branches : List (DocumentStep × Json)} (hc : Contains tag payload branches) :
    ∃ assemble, ∀ location, decodePayload h r location (.str tag.name) payload.toValue
      = (decodeBranches h r location branches).map assemble := by
  cases hc with
  | array items =>
    refine ⟨.list, fun location => ?_⟩
    rw [Json.toValue, decodePayload, ofValue?_name, decodeItems_eq_branches]
    rfl
  | union items =>
    refine ⟨.union, fun location => ?_⟩
    rw [Json.toValue, decodePayload, ofValue?_name, decodeItems_eq_branches]
    rfl
  | obj members =>
    refine ⟨fun copies => .mapping ((members.map fun m => Value.str m.1).zip copies),
      fun location => ?_⟩
    rw [Json.toValue, decodePayload, ofValue?_name, decodeEntries_eq_branches]
    cases decodeBranches h r location (keyed members) <;> rfl

theorem exists_decodeNode_eq {node : Json} {branches : List (DocumentStep × Json)}
    (hb : Branches node branches) :
    ∃ assemble, ∀ location, decodeNode h r location node.toValue
      = (decodeBranches h r location branches).map assemble := by
  cases hb with
  | list items =>
    refine ⟨.list, fun location => ?_⟩
    rw [Json.toValue, decodeNode, decodeItems_eq_branches]
    rfl
  | tagged tagged contains =>
    obtain ⟨assemble, hassemble⟩ := exists_decodePayload_eq (h := h) (r := r) contains
    exact ⟨assemble, fun location =>
      (decodeNode_of_tagged tagged location).trans (hassemble location)⟩

theorem decodeNode_of_branches {node : Json} {branches : List (DocumentStep × Json)}
    (hb : Branches node branches) {location : List DocumentStep}
    (each : ∀ b ∈ branches, ∃ schema,
      decodeNode h r (location ++ [b.1]) b.2.toValue = .ok schema) :
    ∃ schema, decodeNode h r location node.toValue = .ok schema := by
  obtain ⟨assemble, hassemble⟩ := exists_decodeNode_eq (h := h) (r := r) hb
  obtain ⟨copies, hcopies⟩ := exists_mapM_eq_ok each
  refine ⟨assemble copies, ?_⟩
  rw [hassemble, decodeBranches, hcopies]
  rfl

/-- A node fails as the first of its branches that fails. -/
theorem decodeNode_of_first_branch {node part : Json} {branches : List (DocumentStep × Json)}
    (hb : Branches node branches) {i : Nat} {step : DocumentStep}
    (here : branches[i]? = some (step, part)) {location : List DocumentStep} {e : Failure}
    (before : ∀ j b, j < i → branches[j]? = some b → ∃ schema,
      decodeNode h r (location ++ [b.1]) b.2.toValue = .ok schema)
    (fails : decodeNode h r (location ++ [step]) part.toValue = .error e) :
    decodeNode h r location node.toValue = .error e := by
  obtain ⟨assemble, hassemble⟩ := exists_decodeNode_eq (h := h) (r := r) hb
  have hbranches : decodeBranches h r location branches = .error e :=
    mapM_eq_error here before fails
  rw [hassemble, hbranches]
  rfl

/-! ## Nodes without branches -/

/-- A node that stands for a schema by itself. -/
inductive Leaf (h : Heap) (r : Registry) : (node : Json) → Prop
  | name (name : String) : Leaf h r (.str name)
  | predicate {node payload : Json} {p : Value}
      (tagged : Tagged (.str DocumentTag.predicate.name) payload node)
      (registered : r.find? h payload.toValue = some p) : Leaf h r node
  | regexp {node : Json} {source : String} {p : Pattern}
      (tagged : Tagged (.str DocumentTag.regexp.name) (.str source) node)
      (valid : Pattern.ofSource source .off = .ok p) : Leaf h r node

namespace Leaf

variable {node : Json}

theorem isDocument (hl : Leaf h r node) : IsDocument h r node := by
  cases hl with
  | name name => exact .name name
  | predicate tagged registered => exact .predicate tagged registered
  | regexp tagged valid => exact .regexp tagged valid

theorem not_branches (hl : Leaf h r node) (branches : List (DocumentStep × Json)) :
    ¬ Branches node branches := by
  intro hb
  cases hb with
  | list items =>
    cases hl with
    | predicate tagged _ => cases tagged
    | regexp tagged _ => cases tagged
  | tagged tagged contains =>
    cases hl with
    | name name => cases tagged
    | predicate tagged' _ =>
      obtain ⟨rfl, rfl⟩ := tagged'.sameTag tagged
      cases contains
    | regexp tagged' _ =>
      obtain ⟨rfl, rfl⟩ := tagged'.sameTag tagged
      cases contains

theorem flawless (hl : Leaf h r node) : Flawless h r node := by
  intro place location node' hat fault hf
  cases hat with
  | root =>
    obtain ⟨schema, hschema⟩ := decodeNode_of_isDocument hl.isDocument []
    cases hschema.symm.trans (decodeNode_of_flaw hf [])
  | branch opens _ _ => exact hl.not_branches _ opens

end Leaf

/-- A node with a known tag is of one of three forms. -/
theorem form_of_tagged {tag : DocumentTag} {payload node : Json}
    (tagged : Tagged (.str tag.name) payload node) :
    Leaf h r node ∨ (∃ fault, Flaw h r node fault) ∨ ∃ branches, Branches node branches := by
  cases tag with
  | predicate =>
    cases hp : r.find? h payload.toValue with
    | some p => exact .inl (.predicate tagged hp)
    | none => exact .inr (.inl ⟨_, .payload tagged (.predicate hp)⟩)
  | regexp =>
    cases payload with
    | str source =>
      cases hp : Pattern.ofSource source .off with
      | ok p => exact .inl (.regexp tagged hp)
      | error fault => exact .inr (.inl ⟨_, .payload tagged (.pattern hp)⟩)
    | _ => exact .inr (.inl ⟨_, .payload tagged (.source nofun)⟩)
  | obj =>
    cases payload with
    | object members => exact .inr (.inr ⟨_, .tagged tagged (.obj members)⟩)
    | _ => exact .inr (.inl ⟨_, .payload tagged (.obj nofun)⟩)
  | array =>
    cases payload with
    | array items => exact .inr (.inr ⟨_, .tagged tagged (.array items)⟩)
    | _ => exact .inr (.inl ⟨_, .payload tagged (.array nofun)⟩)
  | union =>
    cases payload with
    | array items => exact .inr (.inr ⟨_, .tagged tagged (.union items)⟩)
    | _ => exact .inr (.inl ⟨_, .payload tagged (.union nofun)⟩)

theorem form_cases (node : Json) :
    Leaf h r node ∨ (∃ fault, Flaw h r node fault) ∨ ∃ branches, Branches node branches := by
  cases node with
  | str name => exact .inl (.name name)
  | array items => exact .inr (.inr ⟨_, .list items⟩)
  | object members =>
    by_cases htagged : ∃ tag payload, Tagged tag payload (.object members)
    · obtain ⟨tag, payload, tagged⟩ := htagged
      by_cases hknown : ∃ known : DocumentTag, tag = .str known.name
      · obtain ⟨known, rfl⟩ := hknown
        exact form_of_tagged tagged
      · exact .inr (.inl ⟨_, .tag tagged fun known ht => hknown ⟨known, ht⟩⟩)
    · refine .inr (.inl ⟨_, .shape nofun nofun fun tag payload tagged => ?_⟩)
      exact htagged ⟨tag, payload, tagged⟩
  | _ => exact .inr (.inl ⟨_, .shape nofun nofun nofun⟩)

/-! ## The first flaw -/

theorem Json.FirstFlaw.root {document : Json} {fault : DocumentFault}
    (hf : Flaw h r document fault) : FirstFlaw h r document [] [] document fault :=
  ⟨.root document, hf, fun _ _ _ _ hlt => absurd hlt (List.not_lt_nil _)⟩

/-- The first flaw of the first branch that has any is the first of the whole: branches are not
flawed themselves, and the order of places goes by the branches first. -/
theorem Json.FirstFlaw.ofBranch {document part node : Json} {branches : List (DocumentStep × Json)}
    (hb : Branches document branches) {i : Nat} {step : DocumentStep}
    (here : branches[i]? = some (step, part))
    (before : ∀ j b, j < i → branches[j]? = some b → Flawless h r b.2) {place : List Nat}
    {location : List DocumentStep} {fault : DocumentFault}
    (hf : FirstFlaw h r part place location node fault) :
    FirstFlaw h r document (i :: place) (step :: location) node fault := by
  refine ⟨.branch hb here hf.here, hf.flaw, fun place' location' node' hat hlt fault' => ?_⟩
  cases hat with
  | root => exact hb.not_flaw fault'
  | branch opens there inside =>
    cases hb.unique opens
    rcases List.cons_lt_cons_iff.mp hlt with hj | ⟨rfl, hlater⟩
    · exact before _ _ hj there _ _ _ inside fault'
    · cases here.symm.trans there
      exact hf.earlier _ _ _ inside hlater fault'

theorem Json.Flawless.ofBranches {document : Json} {branches : List (DocumentStep × Json)}
    (hb : Branches document branches) (each : ∀ b ∈ branches, Flawless h r b.2) :
    Flawless h r document := by
  intro place location node hat fault
  cases hat with
  | root => exact hb.not_flaw fault
  | branch opens here inside =>
    cases hb.unique opens
    exact each _ (List.mem_of_getElem? here) _ _ _ inside fault

theorem mem_of_mem_numbered {i : Nat} {items : List Json} {b : DocumentStep × Json}
    (hb : b ∈ numbered i items) : b.2 ∈ items := by
  obtain ⟨item, hitem, rfl⟩ := List.mem_map.mp hb
  exact List.fst_mem_of_mem_zipIdx hitem

theorem Json.Contains.sizeOf_lt {tag : DocumentTag} {payload : Json}
    {branches : List (DocumentStep × Json)} (hc : Contains tag payload branches)
    {b : DocumentStep × Json} (hb : b ∈ branches) : sizeOf b.2 < sizeOf payload := by
  cases hc with
  | array items | union items =>
    have hlt := List.sizeOf_lt_of_mem (mem_of_mem_numbered hb)
    simp
    omega
  | obj members =>
    obtain ⟨m, hm, rfl⟩ := List.mem_map.mp hb
    have hlt := List.sizeOf_lt_of_mem hm
    obtain ⟨key, part⟩ := m
    simp at hlt ⊢
    omega

theorem Json.Branches.sizeOf_lt {node : Json} {branches : List (DocumentStep × Json)}
    (hb : Branches node branches) {b : DocumentStep × Json} (hmem : b ∈ branches) :
    sizeOf b.2 < sizeOf node := by
  cases hb with
  | list items => exact (Contains.array items).sizeOf_lt hmem
  | tagged tagged contains => exact (contains.sizeOf_lt hmem).trans (sizeOf_payload_lt tagged)

/-- What decoding makes of a document, wherever it stands: a schema if there is no flaw in it, and
else the refusal of its first flaw. -/
def Blames (h : Heap) (r : Registry) (document : Json) : Prop :=
  (Flawless h r document ∧
      ∀ start, ∃ schema, decodeNode h r start document.toValue = .ok schema) ∨
    ∃ place location node fault, FirstFlaw h r document place location node fault ∧
      ∀ start, decodeNode h r start document.toValue
        = .error (refusal (start ++ location) fault)

theorem blames_of_branches {document : Json} {branches : List (DocumentStep × Json)}
    (hb : Branches document branches) (each : ∀ b ∈ branches, Blames h r b.2) :
    Blames h r document := by
  by_cases hall : ∀ b ∈ branches, Flawless h r b.2 ∧
      ∀ start, ∃ schema, decodeNode h r start b.2.toValue = .ok schema
  · refine .inl ⟨.ofBranches hb fun b hmem => (hall b hmem).1, fun start => ?_⟩
    exact decodeNode_of_branches hb fun b hmem => (hall b hmem).2 (start ++ [b.1])
  · obtain ⟨i, ⟨step, part⟩, here, hnot, before⟩ := exists_first_of_not_all branches hall
    rcases each _ (List.mem_of_getElem? here) with hflawless | ⟨place, location, node, fault, hf, he⟩
    · exact absurd hflawless hnot
    · refine .inr ⟨i :: place, step :: location, node, fault,
        hf.ofBranch hb here fun j b hj hbj => (before j b hj hbj).1, fun start => ?_⟩
      have hpart := he (start ++ [step])
      rw [List.append_assoc, List.singleton_append] at hpart
      exact decodeNode_of_first_branch hb here
        (fun j b hj hbj => (before j b hj hbj).2 (start ++ [b.1])) hpart

theorem blames (document : Json) : Blames h r document := by
  induction hn : sizeOf document using Nat.strongRecOn generalizing document with
  | ind n ih =>
    rcases form_cases (h := h) (r := r) document with hl | ⟨fault, hf⟩ | ⟨branches, hb⟩
    · exact .inl ⟨hl.flawless, decodeNode_of_isDocument hl.isDocument⟩
    · refine .inr ⟨[], [], document, fault, .root hf, fun start => ?_⟩
      rw [List.append_nil]
      exact decodeNode_of_flaw hf start
    · exact blames_of_branches hb fun b hmem => ih _ (hn ▸ hb.sizeOf_lt hmem) b.2 rfl

/-- A document that is refused for what it is, is refused at its first flawed node: the node is
malformed in itself, no node is that comes before it, and the message starts with its location,
followed by a colon and by what is wrong with the node. -/
theorem decode_blames_first_flaw {document : Json} {failure : Failure}
    (hd : decode h r document.toValue = .error failure) (hblames : failure.blamesSchema = true) :
    ∃ place location node fault, FirstFlaw h r document place location node fault ∧
      failure = .malformed location fault ∧
      failure.message h = locationText location ++ ": " ++ fault.message h := by
  rw [decode_toValue] at hd
  rcases blames (h := h) (r := r) document with ⟨-, hok⟩ | ⟨place, location, node, fault, hf, he⟩
  · obtain ⟨schema, hschema⟩ := hok []
    cases hschema.symm.trans hd
  · cases (he []).symm.trans hd
    rw [List.nil_append] at hblames ⊢
    have hmalformed := eq_of_refusal_blames hblames
    refine ⟨place, location, node, fault, hf, hmalformed, ?_⟩
    rw [hmalformed]
    rfl

/-- A list with two flaws, ahead of a pattern that is no pattern. -/
def tornDocument : Json :=
  .object [("type", .str "obj"), ("schema", .object [
    ("a", .array [.str "number", .int 5, .null]),
    ("b", .object [("type", .str "regexp"), ("schema", .str "(")])])]

def tornFailure : Failure := .malformed [.key "a", .index 1] (.notTagged (.int 5))

theorem decode_blames_first_flaw_torn :
    decode .empty (.extended .empty []) tornDocument.toValue = .error tornFailure ∧
      tornFailure.blamesSchema = true ∧
      tornFailure.message .empty
        = "root.a[1]: expected a type name, list or tagged node, got 5" ∧
      ∃ place location node fault,
        FirstFlaw .empty (.extended .empty []) tornDocument place location node fault ∧
          tornFailure = .malformed location fault ∧
          tornFailure.message .empty = locationText location ++ ": " ++ fault.message .empty := by
  have hfailure : decode .empty (.extended .empty []) tornDocument.toValue = .error tornFailure :=
    rfl
  exact ⟨hfailure, rfl, by decide, decode_blames_first_flaw hfailure rfl⟩

end Conform
