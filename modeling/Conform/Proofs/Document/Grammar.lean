import Conform.Proofs.Document.Tagged
import Conform.Proofs.Schema.Congruence
import Conform.Value.Json
/-!
# Which JSON is a document

A JSON tree is a document if it is a name, a list of documents, or a tag with a payload that the
tag calls for. Decoding accepts documents and nothing else. It refuses other JSON at the first
node that is malformed, unless a pattern comes before that cannot be used for reasons that are no
matter of its syntax.
-/

set_option autoImplicit false

namespace Conform

open Document

/-! ## The grammar -/

namespace Json

/-- A JSON object of a tag and a payload, in either order. -/
inductive Tagged (tag payload : Json) : Json → Prop
  | tagFirst : Tagged tag payload (.object [("type", tag), ("schema", payload)])
  | tagLast : Tagged tag payload (.object [("schema", payload), ("type", tag)])

/-- A JSON container of the form of a document, with the JSON of the parts of its schema. -/
inductive Holds : (node : Json) → (parts : List Json) → Prop
  | list (items : List Json) : Holds (.array items) items
  | array {node : Json} {items : List Json} (tagged : Tagged (.str "array") (.array items) node) :
      Holds node items
  | union {node : Json} {items : List Json} (tagged : Tagged (.str "union") (.array items) node) :
      Holds node items
  | obj {node : Json} {members : List (String × Json)}
      (tagged : Tagged (.str "obj") (.object members) node) : Holds node (members.map Prod.snd)

/-- JSON that stands for a schema. -/
inductive IsDocument (h : Heap) (r : Registry) : Json → Prop
  | name (name : String) : IsDocument h r (.str name)
  | predicate {node payload : Json} {p : Value} (tagged : Tagged (.str "predicate") payload node)
      (registered : r.find? h payload.toValue = some p) : IsDocument h r node
  | regexp {node : Json} {source : String} {p : Pattern}
      (tagged : Tagged (.str "regexp") (.str source) node)
      (valid : Pattern.ofSource source .off = .ok p) : IsDocument h r node
  | container {node : Json} {parts : List Json} (holds : Holds node parts)
      (each : ∀ part ∈ parts, IsDocument h r part) : IsDocument h r node

/-- All that comes before a certain pattern is well formed, and the pattern cannot be used, for a
reason that is no matter of its syntax. -/
inductive Derails (h : Heap) (r : Registry) : Json → Pattern.Fault → Prop
  | here {node : Json} {source : String} {fault : Pattern.Fault}
      (tagged : Tagged (.str "regexp") (.str source) node)
      (refused : Pattern.ofSource source .off = .error fault)
      (beyond : ∀ complaint position, fault ≠ .rejected complaint position) :
      Derails h r node fault
  | inside {node part : Json} {parts : List Json} {fault : Pattern.Fault} (i : Nat)
      (holds : Holds node parts) (here : parts[i]? = some part)
      (earlier : ∀ j other, j < i → parts[j]? = some other → IsDocument h r other)
      (derails : Derails h r part fault) : Derails h r node fault

end Json

open Json

variable {h : Heap} {r : Registry}

/-! ## Parts -/

/-- What comes of decoding parts in order: something of them all, or the failure of the first that
fails. -/
inductive Traversed (h : Heap) (r : Registry) {α : Type} (parts : List Json) :
    Except Failure α → Prop
  | all (a : α) (each : ∀ part ∈ parts, ∃ location copy,
      decodeNode h r location part.toValue = .ok copy) : Traversed h r parts (.ok a)
  | first {i : Nat} {part : Json} {location : List DocumentStep} {e : Failure}
      (here : parts[i]? = some part)
      (before : ∀ j other, j < i → parts[j]? = some other →
        ∃ location copy, decodeNode h r location other.toValue = .ok copy)
      (fails : decodeNode h r location part.toValue = .error e) : Traversed h r parts (.error e)

theorem Traversed.map {α β : Type} {parts : List Json} {out : Except Failure α}
    (ht : Traversed h r parts out) (f : α → β) :
    Traversed h r parts (out >>= fun a => pure (f a)) := by
  cases ht with
  | all a each => exact .all (f a) each
  | first here before fails => exact .first here before fails

theorem Traversed.cons {α β : Type} {part : Json} {parts : List Json} {location : List DocumentStep}
    {out : Except Failure α} (ht : Traversed h r parts out) (f : Value → α → β) :
    Traversed h r (part :: parts)
      (decodeNode h r location part.toValue >>= fun first => out >>= fun others =>
        pure (f first others)) := by
  cases hpart : decodeNode h r location part.toValue with
  | error e => exact .first (i := 0) rfl (fun j other hj => by omega) hpart
  | ok copy =>
    cases ht with
    | all a each =>
      exact .all (f copy a) (List.forall_mem_cons.mpr ⟨⟨location, copy, hpart⟩, each⟩)
    | @first i other _ e here before fails =>
      refine .first (i := i + 1) here (fun j x hj hx => ?_) fails
      cases j with
      | zero =>
        cases hx
        exact ⟨location, copy, hpart⟩
      | succ j => exact before j x (by omega) hx

theorem traversed_decodeItems (location : List DocumentStep) (i : Nat) (items : List Json) :
    Traversed h r items (decodeItems h r location i (valuesOf items)) := by
  induction items generalizing i with
  | nil => exact .all [] nofun
  | cons item items ih => exact (ih (i + 1)).cons _

theorem traversed_decodeEntries (location : List DocumentStep) (members : List (String × Json)) :
    Traversed h r (members.map Prod.snd) (decodeEntries h r location (entriesOf members)) := by
  induction members with
  | nil => exact .all [] nofun
  | cons m members ih => exact ih.cons _

/-- If every part can be decoded wherever it stands, all of them are. -/
theorem Traversed.exists_ok {α : Type} {parts : List Json} {out : Except Failure α}
    (ht : Traversed h r parts out)
    (each : ∀ part ∈ parts, ∀ location, ∃ copy, decodeNode h r location part.toValue = .ok copy) :
    ∃ a, out = .ok a := by
  cases ht with
  | all a _ => exact ⟨a, rfl⟩
  | first here before fails =>
    obtain ⟨copy, hcopy⟩ := each _ (List.mem_of_getElem? here) _
    cases hcopy.symm.trans fails

/-- What comes of the first part that cannot be decoded comes of them all. -/
theorem Traversed.exists_error {α : Type} {parts : List Json} {out : Except Failure α}
    (ht : Traversed h r parts out) {i : Nat} {part : Json} (here : parts[i]? = some part)
    (earlier : ∀ j other, j < i → parts[j]? = some other →
      ∀ location, ∃ copy, decodeNode h r location other.toValue = .ok copy)
    {p : Failure → Prop}
    (fails : ∀ location, ∃ e, decodeNode h r location part.toValue = .error e ∧ p e) :
    ∃ e, out = .error e ∧ p e := by
  cases ht with
  | all a each =>
    obtain ⟨location, copy, hcopy⟩ := each part (List.mem_of_getElem? here)
    obtain ⟨e, he, -⟩ := fails location
    cases hcopy.symm.trans he
  | @first i' part' location' e' here' before' fails' =>
    rcases Nat.lt_trichotomy i' i with hlt | rfl | hlt
    · obtain ⟨copy, hcopy⟩ := earlier i' part' hlt here' location'
      cases hcopy.symm.trans fails'
    · cases here.symm.trans here'
      obtain ⟨e, he, hp⟩ := fails location'
      cases he.symm.trans fails'
      exact ⟨_, rfl, hp⟩
    · obtain ⟨location, copy, hcopy⟩ := before' i part hlt here
      obtain ⟨e, he, -⟩ := fails location
      cases hcopy.symm.trans he

/-! ## Tagged nodes -/

theorem decodeNode_of_tagged {tag payload node : Json} (ht : Tagged tag payload node)
    (location : List DocumentStep) :
    decodeNode h r location node.toValue
      = decodePayload h r location tag.toValue payload.toValue := by
  cases ht with
  | tagFirst =>
    rw [Json.toValue, decodeNode, entriesOf, entriesOf, entriesOf, decodeTagged, typeKey, schemaKey,
      equal_str, equal_str, beq_self_eq_true, beq_self_eq_true]
    rfl
  | tagLast =>
    rw [Json.toValue, decodeNode, entriesOf, entriesOf, entriesOf, decodeTagged, typeKey, schemaKey,
      equal_str, equal_str, equal_str, equal_str, beq_self_eq_true, beq_self_eq_true]
    rfl

theorem decodeNode_of_untagged {members : List (String × Json)}
    (hu : ∀ tag payload, ¬ Tagged tag payload (.object members)) (location : List DocumentStep) :
    decodeNode h r location (Json.object members).toValue
      = .error (.malformed location (.notTagged (Json.object members).toValue)) := by
  rw [Json.toValue, decodeNode]
  rcases members with _ | ⟨⟨first, a⟩, _ | ⟨⟨second, b⟩, _ | ⟨third, rest⟩⟩⟩
  · rfl
  · rfl
  · rw [entriesOf, entriesOf, entriesOf, decodeTagged, typeKey, schemaKey, equal_str, equal_str,
      equal_str, equal_str]
    have htag : (first == "type" && second == "schema") = false := by
      refine Bool.eq_false_iff.mpr fun hboth => ?_
      rw [Bool.and_eq_true, beq_iff_eq, beq_iff_eq] at hboth
      obtain ⟨rfl, rfl⟩ := hboth
      exact hu a b .tagFirst
    have hswap : (first == "schema" && second == "type") = false := by
      refine Bool.eq_false_iff.mpr fun hboth => ?_
      rw [Bool.and_eq_true, beq_iff_eq, beq_iff_eq] at hboth
      obtain ⟨rfl, rfl⟩ := hboth
      exact hu b a .tagLast
    rw [htag, hswap]
    rfl
  · rfl

/-- Only a text is a tag. -/
theorem eq_str_of_ofValue? {tag : Json} {t : DocumentTag}
    (ht : DocumentTag.ofValue? h tag.toValue = some t) : tag = .str t.name := by
  have hequal := List.find?_some ht
  have htext := text?_of_equal_text h rfl hequal
  cases tag with
  | str s =>
    cases htext
    rfl
  | _ => cases htext

/-- A payload that has no parts of the kind that its tag calls for. -/
theorem decodePayload_flat {tag payload : Json} {t : Option DocumentTag}
    (ht : DocumentTag.ofValue? h tag.toValue = t)
    (hitems : ∀ items, payload = .array items → t ≠ some .array ∧ t ≠ some .union)
    (hmembers : ∀ members, payload = .object members → t ≠ some .obj)
    (location : List DocumentStep) :
    decodePayload h r location tag.toValue payload.toValue
      = decodeFlat h r location tag.toValue t payload.toValue := by
  subst ht
  cases payload with
  | array items =>
    obtain ⟨harray, hunion⟩ := hitems items rfl
    rw [Json.toValue, decodePayload]
    split
    · next ht => exact absurd ht harray
    · next ht => exact absurd ht hunion
    · rfl
  | object members =>
    rw [Json.toValue, decodePayload]
    split
    · next ht => exact absurd ht (hmembers members rfl)
    · rfl
  | _ => rfl

theorem decodeNode_array {node : Json} {items : List Json}
    (tagged : Tagged (.str "array") (.array items) node) (location : List DocumentStep) :
    decodeNode h r location node.toValue
      = decodeItems h r location 0 (valuesOf items) >>= fun l => pure (.list l) := by
  have htag : DocumentTag.ofValue? h (Json.str "array").toValue = some .array :=
    ofValue?_name .array
  rw [decodeNode_of_tagged tagged, Json.toValue.eq_6, decodePayload, htag]

theorem decodeNode_union {node : Json} {items : List Json}
    (tagged : Tagged (.str "union") (.array items) node) (location : List DocumentStep) :
    decodeNode h r location node.toValue
      = decodeItems h r location 0 (valuesOf items) >>= fun l => pure (.union l) := by
  have htag : DocumentTag.ofValue? h (Json.str "union").toValue = some .union :=
    ofValue?_name .union
  rw [decodeNode_of_tagged tagged, Json.toValue.eq_6, decodePayload, htag]

theorem decodeNode_obj {node : Json} {members : List (String × Json)}
    (tagged : Tagged (.str "obj") (.object members) node) (location : List DocumentStep) :
    decodeNode h r location node.toValue
      = decodeEntries h r location (entriesOf members) >>= fun l => pure (.mapping l) := by
  have htag : DocumentTag.ofValue? h (Json.str "obj").toValue = some .obj := ofValue?_name .obj
  rw [decodeNode_of_tagged tagged, Json.toValue.eq_7, decodePayload, htag]

theorem decodeNode_regexp {node : Json} {source : String}
    (tagged : Tagged (.str "regexp") (.str source) node) (location : List DocumentStep) :
    decodeNode h r location node.toValue = decodePattern location source :=
  (decodeNode_of_tagged tagged location).trans (decodePayload_source location source)

theorem decodeNode_predicate {payload node : Json} {p : Value}
    (tagged : Tagged (.str "predicate") payload node)
    (registered : r.find? h payload.toValue = some p) (location : List DocumentStep) :
    decodeNode h r location node.toValue = .ok p :=
  (decodeNode_of_tagged tagged location).trans (decodePayload_predicate registered location)

theorem traversed_of_holds {node : Json} {parts : List Json} (hh : Holds node parts)
    (location : List DocumentStep) :
    Traversed h r parts (decodeNode h r location node.toValue) := by
  cases hh with
  | list => exact (traversed_decodeItems location 0 _).map _
  | array tagged =>
    rw [decodeNode_array tagged]
    exact (traversed_decodeItems location 0 _).map _
  | union tagged =>
    rw [decodeNode_union tagged]
    exact (traversed_decodeItems location 0 _).map _
  | obj tagged =>
    rw [decodeNode_obj tagged]
    exact (traversed_decodeEntries location _).map _

/-! ## Documents are decoded, and other JSON is not -/

theorem decodeNode_of_isDocument {node : Json} (hd : IsDocument h r node)
    (location : List DocumentStep) : ∃ copy, decodeNode h r location node.toValue = .ok copy := by
  induction hd generalizing location with
  | name name => exact ⟨.str name, rfl⟩
  | @predicate node payload p tagged registered =>
    exact ⟨p, decodeNode_predicate tagged registered location⟩
  | @regexp node source p tagged valid =>
    refine ⟨.object none (.pattern p), ?_⟩
    rw [decodeNode_regexp tagged, decodePattern, valid]
  | container holds _ ih => exact (traversed_of_holds holds location).exists_ok ih

theorem decodeNode_of_derails {node : Json} {fault : Pattern.Fault} (hd : Derails h r node fault)
    (location : List DocumentStep) :
    ∃ e, decodeNode h r location node.toValue = .error e ∧ e = .unusablePattern fault := by
  induction hd generalizing location with
  | @here node source fault tagged refused beyond =>
    refine ⟨_, ?_, rfl⟩
    rw [decodeNode_regexp tagged, decodePattern, refused]
    split
    · next hq => cases hq
    · next hq =>
      cases hq
      exact absurd rfl (beyond _ _)
    · next hq =>
      cases hq
      rfl
  | inside i holds here earlier _ ih =>
    exact (traversed_of_holds holds location).exists_error here
      (fun j other hj hother => decodeNode_of_isDocument (earlier j other hj hother)) ih

/-- Wherever it stands, it is refused as malformed. -/
def Malformed (h : Heap) (r : Registry) (node : Json) : Prop :=
  ∀ location, ∃ e, decodeNode h r location node.toValue = .error e ∧
    ∃ place fault, e = .malformed place fault

theorem malformed_of_flat {tag payload node : Json} {t : Option DocumentTag}
    (tagged : Tagged tag payload node) (ht : DocumentTag.ofValue? h tag.toValue = t)
    (hitems : ∀ items, payload = .array items → t ≠ some .array ∧ t ≠ some .union)
    (hmembers : ∀ members, payload = .object members → t ≠ some .obj)
    (hflat : ∀ location, ∃ fault, decodeFlat h r location tag.toValue t payload.toValue
      = .error (.malformed location fault)) : Malformed h r node := by
  intro location
  obtain ⟨fault, hfault⟩ := hflat location
  refine ⟨_, ?_, location, fault, rfl⟩
  rw [decodeNode_of_tagged tagged, decodePayload_flat ht hitems hmembers, hfault]

/-- Each JSON is a document, derails, or is malformed. -/
def Classified (h : Heap) (r : Registry) (node : Json) : Prop :=
  IsDocument h r node ∨ (∃ fault, Derails h r node fault) ∨ Malformed h r node

theorem classified_of_holds {node : Json} {parts : List Json} (holds : Holds node parts)
    (each : ∀ part ∈ parts, Classified h r part) : Classified h r node := by
  by_cases hall : ∀ part ∈ parts, IsDocument h r part
  · exact .inl (.container holds hall)
  · obtain ⟨i, part, here, hnot, before⟩ := exists_first_of_not_all parts hall
    rcases each part (List.mem_of_getElem? here) with hd | ⟨fault, hd⟩ | hm
    · exact absurd hd hnot
    · exact .inr (.inl ⟨fault, .inside i holds here before hd⟩)
    · refine .inr (.inr fun location => ?_)
      exact (traversed_of_holds holds location).exists_error here
        (fun j other hj hother => decodeNode_of_isDocument (before j other hj hother)) hm

theorem classified_regexp {payload node : Json} (tagged : Tagged (.str "regexp") payload node) :
    Classified h r node := by
  have htag : DocumentTag.ofValue? h (Json.str "regexp").toValue = some .regexp :=
    ofValue?_name .regexp
  have hmalformed (hflat : ∀ location, ∃ fault, decodeFlat h r location
      (Json.str "regexp").toValue (some .regexp) payload.toValue
        = .error (.malformed location fault)) : Malformed h r node :=
    malformed_of_flat tagged htag (fun _ _ => ⟨nofun, nofun⟩) (fun _ _ => nofun) hflat
  cases payload with
  | str source =>
    cases hp : Pattern.ofSource source .off with
    | ok p => exact .inl (.regexp tagged hp)
    | error fault =>
      by_cases hsyntax : ∃ complaint position, fault = .rejected complaint position
      · obtain ⟨complaint, position, rfl⟩ := hsyntax
        refine .inr (.inr (hmalformed fun location =>
          ⟨.badPattern source (.rejected complaint position), ?_⟩))
        show decodePattern location source = _
        rw [decodePattern, hp]
      · refine .inr (.inl ⟨fault, .here tagged hp fun complaint position hf => ?_⟩)
        exact hsyntax ⟨complaint, position, hf⟩
  | _ => exact .inr (.inr (hmalformed fun location => ⟨_, rfl⟩))

/-- Arrays and unions, which call for a list. -/
theorem classified_list {tag payload node : Json} {t : DocumentTag}
    (tagged : Tagged tag payload node) (ht : DocumentTag.ofValue? h tag.toValue = some t)
    (hobj : t ≠ .obj) (hholds : ∀ items, payload = .array items → Holds node items)
    (hitems : ∀ items, payload = .array items → ∀ item ∈ items, Classified h r item)
    (hflat : ∀ location, ∃ fault, decodeFlat h r location tag.toValue (some t) payload.toValue
      = .error (.malformed location fault)) : Classified h r node := by
  by_cases hlist : ∃ items, payload = .array items
  · obtain ⟨items, hp⟩ := hlist
    exact classified_of_holds (hholds items hp) (hitems items hp)
  · refine .inr (.inr (malformed_of_flat tagged ht (fun items hp => ?_) (fun _ _ => ?_) hflat))
    · exact absurd ⟨items, hp⟩ hlist
    · simpa using hobj

theorem classified_of_tagged {tag payload node : Json} (tagged : Tagged tag payload node)
    (hitems : ∀ items, payload = .array items → ∀ item ∈ items, Classified h r item)
    (hmembers : ∀ members, payload = .object members →
      ∀ part ∈ members.map Prod.snd, Classified h r part) : Classified h r node := by
  cases ht : DocumentTag.ofValue? h tag.toValue with
  | none =>
    exact .inr (.inr (malformed_of_flat tagged ht (fun _ _ => by decide) (fun _ _ => by decide)
      fun location => ⟨_, rfl⟩))
  | some t =>
    obtain rfl := eq_str_of_ofValue? ht
    cases t with
    | predicate =>
      cases hp : r.find? h payload.toValue with
      | some p => exact .inl (.predicate tagged hp)
      | none =>
        refine .inr (.inr (malformed_of_flat tagged ht (fun _ _ => by decide)
          (fun _ _ => by decide) fun location => ⟨.unknownPredicate payload.toValue, ?_⟩))
        rw [decodeFlat, hp]
    | regexp => exact classified_regexp tagged
    | obj =>
      by_cases hm : ∃ members, payload = .object members
      · obtain ⟨members, rfl⟩ := hm
        exact classified_of_holds (.obj tagged) (hmembers members rfl)
      · exact .inr (.inr (malformed_of_flat tagged ht (fun _ _ => by decide)
          (fun members hp => absurd ⟨members, hp⟩ hm) fun location => ⟨_, rfl⟩))
    | array =>
      exact classified_list tagged ht (by decide) (fun items hp => .array (hp ▸ tagged)) hitems
        fun location => ⟨_, rfl⟩
    | union =>
      exact classified_list tagged ht (by decide) (fun items hp => .union (hp ▸ tagged)) hitems
        fun location => ⟨_, rfl⟩

theorem sizeOf_payload_lt {tag payload node : Json} (ht : Tagged tag payload node) :
    sizeOf payload < sizeOf node := by
  cases ht <;> simp <;> omega

theorem classified (node : Json) : Classified h r node := by
  induction hn : sizeOf node using Nat.strongRecOn generalizing node with
  | ind n ih =>
    have smaller (part : Json) (hlt : sizeOf part < sizeOf node) : Classified h r part :=
      ih (sizeOf part) (hn ▸ hlt) part rfl
    cases node with
    | str name => exact .inl (.name name)
    | array items =>
      refine classified_of_holds (.list items) fun item hitem => smaller item ?_
      have hlt := List.sizeOf_lt_of_mem hitem
      simp
      omega
    | object members =>
      by_cases htag : ∃ tag payload, Tagged tag payload (.object members)
      · obtain ⟨tag, payload, tagged⟩ := htag
        have hlt := sizeOf_payload_lt tagged
        refine classified_of_tagged tagged ?_ ?_
        · rintro items rfl item hitem
          have hitem := List.sizeOf_lt_of_mem hitem
          refine smaller item ?_
          simp at hlt ⊢
          omega
        · rintro parts rfl part hpart
          obtain ⟨m, hm, rfl⟩ := List.mem_map.mp hpart
          have hm := List.sizeOf_lt_of_mem hm
          obtain ⟨key, part⟩ := m
          refine smaller part ?_
          simp at hlt hm ⊢
          omega
      · refine .inr (.inr fun location => ?_)
        have hfault := decodeNode_of_untagged (h := h) (r := r)
          (fun tag payload ht => htag ⟨tag, payload, ht⟩) location
        exact ⟨_, hfault, location, _, rfl⟩
    | _ => exact .inr (.inr fun location => ⟨_, rfl, location, _, rfl⟩)

mutual

/-- JSON holds no links. -/
theorem unfoldWith_toValue (follow : Nat → Value) :
    ∀ node : Json, unfoldWith follow node.toValue = node.toValue
  | .null => rfl
  | .bool _ => rfl
  | .int _ => rfl
  | .float _ => rfl
  | .str _ => rfl
  | .array items => by rw [Json.toValue, unfoldWith, unfoldAll_valuesOf follow items]
  | .object members => by rw [Json.toValue, unfoldWith, unfoldEntries_entriesOf follow members]

theorem unfoldAll_valuesOf (follow : Nat → Value) :
    ∀ items : List Json, unfoldAll follow (valuesOf items) = valuesOf items
  | [] => rfl
  | item :: items => by
    rw [valuesOf, unfoldAll, unfoldWith_toValue follow item, unfoldAll_valuesOf follow items]

theorem unfoldEntries_entriesOf (follow : Nat → Value) :
    ∀ members : List (String × Json), unfoldEntries follow (entriesOf members) = entriesOf members
  | [] => rfl
  | (key, value) :: members => by
    rw [entriesOf, unfoldEntries, unfoldWith_toValue follow value,
      unfoldEntries_entriesOf follow members]

end

theorem valuesOf_eq_map (items : List Json) : valuesOf items = items.map Json.toValue := by
  induction items with
  | nil => rfl
  | cons item items ih => rw [valuesOf, ih, List.map_cons]

theorem entriesOf_eq_map (members : List (String × Json)) :
    entriesOf members = members.map fun m => (.str m.1, m.2.toValue) := by
  induction members with
  | nil => rfl
  | cons m members ih => rw [entriesOf, ih, List.map_cons]

theorem decode_toValue (node : Json) :
    decode h r node.toValue = decodeNode h r [] node.toValue := by
  have hunfold : h.unfold node.toValue = node.toValue := unfoldWith_toValue _ node
  rw [decode, hunfold]

theorem decode_of_derails {node : Json} {fault : Pattern.Fault} (hd : Derails h r node fault) :
    decode h r node.toValue = .error (.unusablePattern fault) := by
  obtain ⟨e, he, rfl⟩ := decodeNode_of_derails hd []
  rw [decode_toValue, he]

theorem exists_decode_of_isDocument {node : Json} (hd : IsDocument h r node) :
    ∃ copy, decode h r node.toValue = .ok copy := by
  rw [decode_toValue]
  exact decodeNode_of_isDocument hd []

theorem not_isDocument_of_derails {node : Json} {fault : Pattern.Fault}
    (hd : Derails h r node fault) : ¬ IsDocument h r node := by
  intro hdocument
  obtain ⟨copy, hcopy⟩ := exists_decode_of_isDocument hdocument
  cases hcopy.symm.trans (decode_of_derails hd)

theorem isDocument_of_decode {node : Json} {schema : Value}
    (hs : decode h r node.toValue = .ok schema) : IsDocument h r node := by
  rcases classified (h := h) (r := r) node with hd | ⟨fault, hd⟩ | hm
  · exact hd
  · cases hs.symm.trans (decode_of_derails hd)
  · obtain ⟨e, he, -⟩ := hm []
    rw [← decode_toValue] at he
    cases hs.symm.trans he

/-- Decoding JSON gives a schema exactly for documents. All other JSON is refused as malformed,
unless it comes first to a pattern that cannot be used for a reason that is no matter of syntax:
then, and only then, decoding fails with that reason. -/
theorem decode_json (h : Heap) (r : Registry) (node : Json) :
    ((∃ schema, decode h r node.toValue = .ok schema) ↔ IsDocument h r node) ∧
      (∀ fault, decode h r node.toValue = .error (.unusablePattern fault) ↔
        Derails h r node fault) ∧
      (IsDocument h r node ∨ (∃ fault, Derails h r node fault) ∨
        ∃ location fault, decode h r node.toValue = .error (.malformed location fault)) := by
  rcases classified (h := h) (r := r) node with hd | ⟨fault, hd⟩ | hm
  · obtain ⟨copy, hcopy⟩ := exists_decode_of_isDocument hd
    refine ⟨⟨fun _ => hd, fun _ => ⟨copy, hcopy⟩⟩,
      fun fault => ⟨fun hfault => ?_, fun hderails => ?_⟩, .inl hd⟩
    · cases hcopy.symm.trans hfault
    · exact absurd hd (not_isDocument_of_derails hderails)
  · have hfault := decode_of_derails hd
    refine ⟨⟨?_, fun hdocument => absurd hdocument (not_isDocument_of_derails hd)⟩,
      fun other => ⟨fun hother => ?_, decode_of_derails⟩, .inr (.inl ⟨fault, hd⟩)⟩
    · rintro ⟨copy, hcopy⟩
      cases hcopy.symm.trans hfault
    · cases hother.symm.trans hfault
      exact hd
  · obtain ⟨e, he, location, fault, rfl⟩ := hm []
    rw [← decode_toValue] at he
    refine ⟨⟨?_, exists_decode_of_isDocument⟩, fun other => ⟨fun hother => ?_, decode_of_derails⟩,
      .inr (.inr ⟨location, fault, he⟩)⟩
    · rintro ⟨copy, hcopy⟩
      cases hcopy.symm.trans he
    · cases hother.symm.trans he

def tooManyRepetitions : Json := .object [("type", .str "regexp"), ("schema", .str "a{4294967296}")]

def twoAlphabets : Json := .object [("type", .str "regexp"), ("schema", .str "(?u)(?a)x")]

/-- A source that asks for too many repetitions, and one that calls for two alphabets: neither is a
document, and neither is refused as malformed. -/
theorem decode_beyond_syntax :
    (¬ IsDocument .empty (.extended .empty []) tooManyRepetitions ∧
      decode .empty (.extended .empty []) tooManyRepetitions.toValue
        = .error (.unusablePattern .repeatTooLarge)) ∧
    (¬ IsDocument .empty (.extended .empty []) twoAlphabets ∧
      decode .empty (.extended .empty []) twoAlphabets.toValue
        = .error (.unusablePattern .incompatibleAlphabets)) := by
  have hrepeat : Pattern.ofSource "a{4294967296}" .off = .error .repeatTooLarge := by
    decide +kernel
  have halphabets : Pattern.ofSource "(?u)(?a)x" .off = .error .incompatibleAlphabets := by
    decide +kernel
  have repetitions : Derails .empty (.extended .empty []) tooManyRepetitions .repeatTooLarge :=
    .here .tagFirst hrepeat fun _ _ hfault => (by cases hfault)
  have alphabets : Derails .empty (.extended .empty []) twoAlphabets .incompatibleAlphabets :=
    .here .tagFirst halphabets fun _ _ hfault => (by cases hfault)
  exact ⟨⟨not_isDocument_of_derails repetitions, decode_of_derails repetitions⟩,
    ⟨not_isDocument_of_derails alphabets, decode_of_derails alphabets⟩⟩

end Conform
