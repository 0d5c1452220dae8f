import Conform.Proofs.Json.Strings
import Conform.Proofs.Schema.Nesting
import Conform.Proofs.Text.Lines
import Conform.Proofs.Value.Equality
import Conform.Schema.Rendering
/-!
# How far schemas are indented

The text of a schema is put together from the texts of its parts, and only objects show their parts
one level deeper. So the text at one level deeper is the same text, shifted: every line but the
first starts four blanks further to the right. An object schema inside a schema is shown as it is by
itself, shifted once for every object that it is in. Main statement: `renderAt_succ_depth`.
-/

set_option autoImplicit false

namespace Conform

variable {h : Heap}

/-! ## Schemas that break no lines -/

/-- What a node shows of itself is on one line, and its keys are texts, whatever is in them. -/
def Unbroken (h : Heap) (node : Value) : Prop :=
  match h.kind? node with
  | some (.atom name) => OneLine name ∧ OneLine (embedded node name)
  | some .predicate => OneLine (predicateText h node)
  | some (.pattern p) => OneLine p.source
  | some (.object entries) => ∀ e ∈ entries, ∃ text, e.1.text? = some text
  | _ => True

/-- A well-formed schema that breaks no line but in its keys. -/
structure Legible (h : Heap) (schema : Value) : Prop where
  wellFormed : WellFormed h schema
  unbroken : ∀ node, Within h node schema → Unbroken h node

theorem Legible.part {schema part : Value} {k : Kind} (hs : Legible h schema)
    (hk : h.kind? schema = some k) (hp : part ∈ k.parts) : Legible h part :=
  ⟨hs.wellFormed.part hk hp, fun node hn => hs.unbroken node (.inside hk hp hn)⟩

theorem Legible.own {schema : Value} (hs : Legible h schema) : Unbroken h schema :=
  hs.unbroken schema .here

theorem Legible.keys {schema : Value} {entries : List (Value × Value)} (hs : Legible h schema)
    (hk : h.kind? schema = some (.object entries)) :
    ∀ e ∈ entries, ∃ text, e.1.text? = some text := by
  have hown := hs.own
  rw [Unbroken, hk] at hown
  exact hown

/-- What holds of a schema if it holds of its parts, links followed, holds of all. -/
theorem Legible.induction {motive : Value → Prop}
    (step : ∀ v k, Legible h v → h.kind? v = some k →
      (∀ part ∈ k.parts, Legible h part ∧ motive part) → motive v)
    {schema : Value} (hs : Legible h schema) : motive schema := by
  have hw := hs.wellFormed
  induction hw with
  | @intro v k kind parts ih =>
    exact step v k hs kind fun part hp => ⟨hs.part kind hp, ih part hp (hs.part kind hp)⟩

/-! ## A schema from its parts -/

/-- The text of a schema of a kind, with the texts of its parts at each depth. -/
def kindText (h : Heap) (partText : Nat → Value → String) (depth : Nat) (schema : Value) :
    Kind → String
  | .atom name => name
  | .predicate => predicateText h schema
  | .pattern p => "/" ++ p.source ++ "/"
  | .array members => "[" ++ commaList (members.map (partText depth)) ++ "]"
  | .union members => String.intercalate " | " (members.map (partText depth))
  | .object entries =>
    linesText depth (entries.map fun e =>
      entryText (h.plain e.1) (embedded e.2 (partText (depth + 1) e.2)))

theorem kindText_congr {partText partText' : Nat → Value → String} {k : Kind}
    (hparts : ∀ part ∈ k.parts, ∀ depth, partText depth part = partText' depth part)
    (depth : Nat) (schema : Value) :
    kindText h partText depth schema k = kindText h partText' depth schema k := by
  cases k with
  | array members =>
    have hmembers : members.map (partText depth) = members.map (partText' depth) :=
      List.map_congr_left fun part hp => hparts part hp depth
    rw [kindText, kindText, hmembers]
  | union members =>
    have hmembers : members.map (partText depth) = members.map (partText' depth) :=
      List.map_congr_left fun part hp => hparts part hp depth
    rw [kindText, kindText, hmembers]
  | object entries =>
    rw [kindText, kindText]
    refine congrArg (linesText depth) (List.map_congr_left fun e he => ?_)
    rw [hparts e.2 (Kind.mem_parts_object he) (depth + 1)]
  | _ => rfl

section

variable (h) (onLink : Nat → Nat → String)

theorem textWith_text {v : Value} {text : String} (hv : v.text? = some text) :
    textWith h onLink v = h.plain v := by
  rcases text_cases hv with rfl | ⟨handle, member, rfl⟩ <;> rfl

theorem renderAll_eq_map (depth : Nat) (members : List Value) :
    renderAll h onLink depth members = members.map (renderWith h onLink depth) := by
  induction members with
  | nil => rfl
  | cons v members ih => rw [renderAll, ih, List.map_cons]

theorem renderEntries_eq_map (depth : Nat) {entries : List (Value × Value)}
    (keys : ∀ e ∈ entries, ∃ text, e.1.text? = some text) :
    renderEntries h onLink depth entries = entries.map fun e =>
      entryText (h.plain e.1) (embedded e.2 (renderWith h onLink depth e.2)) := by
  induction entries with
  | nil => rfl
  | cons e entries ih =>
    obtain ⟨⟨text, htext⟩, keys⟩ := List.forall_mem_cons.mp keys
    rw [renderEntries, ih keys, textWith_text h onLink htext, List.map_cons]

theorem renderWith_of_kind {v : Value} {k : Kind} (hk : v.kind? = some k)
    (keys : ∀ entries, k = .object entries → ∀ e ∈ entries, ∃ text, e.1.text? = some text)
    (depth : Nat) :
    renderWith h onLink depth v = kindText h (renderWith h onLink) depth v k := by
  cases v with
  | list members | tuple members | union members =>
    cases hk
    rw [renderWith, renderAll_eq_map, kindText]
  | mapping entries =>
    cases hk
    rw [renderWith, renderEntries_eq_map h onLink _ (keys entries rfl), kindText]
  | object handle content =>
    cases content with
    | set members | frozenSet members =>
      cases hk
      rw [renderWith, renderObject, renderAll_eq_map, kindText]
    | proxy entries =>
      cases hk
      rw [renderWith, renderObject, renderEntries_eq_map h onLink _ (keys entries rfl), kindText]
    | strMember _ _ | host _ | function _ _ _ _ _ | pattern _ =>
      cases hk
      rfl
    | _ => cases hk
  | str _ | check _ =>
    cases hk
    rfl
  | _ => cases hk

end

/-! ## Links -/

theorem exists_renderAt_eq (h : Heap) (n : Nat) : ∃ onLink, h.renderAt n = renderWith h onLink := by
  cases n with
  | zero => exact ⟨_, rfl⟩
  | succ n => exact ⟨_, rfl⟩

theorem renderAt_of_kind {v : Value} {k : Kind} (hk : v.kind? = some k)
    (keys : ∀ entries, k = .object entries → ∀ e ∈ entries, ∃ text, e.1.text? = some text)
    (n depth : Nat) : h.renderAt n depth v = kindText h (h.renderAt n) depth v k := by
  obtain ⟨onLink, hrender⟩ := exists_renderAt_eq h n
  rw [hrender]
  exact renderWith_of_kind h onLink hk keys depth

theorem Legible.keys_of_kind {v : Value} {k : Kind} (hv : Legible h v) (hk : h.kind? v = some k) :
    ∀ entries, k = .object entries → ∀ e ∈ entries, ∃ text, e.1.text? = some text := by
  rintro entries rfl
  exact hv.keys hk

/-- As many links as are inside one another suffice. -/
theorem renderAt_of_nests {v : Value} (hv : Legible h v) :
    ∀ n m, Nests h n v → n ≤ m → ∀ depth, h.renderAt m depth v = h.renderAt n depth v := by
  refine Legible.induction (motive := fun v => ∀ n m, Nests h n v → n ≤ m →
    ∀ depth, h.renderAt m depth v = h.renderAt n depth v) ?_ hv
  intro v k hv hk ih n m hn hnm depth
  have keys := hv.keys_of_kind hk
  rcases v.link_or with ⟨a, rfl⟩ | hlink
  · obtain ⟨n, rfl, hcell⟩ := hn.cell
    obtain ⟨m, rfl⟩ : ∃ m', m = m' + 1 := ⟨m - 1, by omega⟩
    have hkind : (h.cell a).kind? = some k := hk
    show h.renderAt m depth (h.cell a) = h.renderAt n depth (h.cell a)
    rw [renderAt_of_kind hkind keys, renderAt_of_kind hkind keys]
    refine kindText_congr (fun part hp => ?_) depth _
    exact (ih part hp).2 n m (hcell.part hk hp) (Nat.le_of_succ_le_succ hnm)
  · rw [Heap.kind?, resolve_of_ne_link h hlink] at hk
    rw [renderAt_of_kind hk keys, renderAt_of_kind hk keys]
    exact kindText_congr (fun part hp => (ih part hp).2 n m (hn.part hk hp) hnm) depth _

/-- The text of a schema at a depth is put together from the texts of its parts. -/
theorem renderAt_eq_kindText {v : Value} {k : Kind} (hv : Legible h v) (hk : h.kind? v = some k)
    (depth : Nat) : h.renderAt (h.size + 1) depth v
      = kindText h (h.renderAt (h.size + 1)) depth (h.resolve v) k := by
  have keys := hv.keys_of_kind hk
  rcases v.link_or with ⟨a, rfl⟩ | hlink
  · obtain ⟨n, hsize, hcell⟩ := (nests_of_wellFormed hv.wellFormed (Nat.le_refl _)).cell
    cases hsize
    have hkind : (h.cell a).kind? = some k := hk
    show h.renderAt h.size depth (h.cell a) = _
    rw [renderAt_of_kind hkind keys]
    refine kindText_congr (fun part hp depth => ?_) depth _
    exact (renderAt_of_nests (hv.part hk hp) _ _ (hcell.part hk hp) (Nat.le_succ _) depth).symm
  · rw [resolve_of_ne_link h hlink]
    rw [Heap.kind?, resolve_of_ne_link h hlink] at hk
    exact renderAt_of_kind hk keys _ depth

/-! ## One level deeper -/

theorem margin_succ (depth : Nat) : margin (depth + 1) = margin 1 ++ margin depth := by
  rw [← String.toList_inj, String.toList_append, margin, margin, margin, pushn_toList,
    pushn_toList, pushn_toList, ← List.replicate_add]
  congr 1
  omega

theorem oneLine_margin (depth : Nat) : OneLine (margin depth) := by
  unfold OneLine margin
  rw [pushn_toList, List.mem_replicate]
  exact fun hline => absurd hline.2 (by decide)

theorem oneLine_jsonString (key : String) : OneLine (String.ofList (Text.jsonString key)) := by
  unfold OneLine
  rw [String.toList_ofList]
  exact fun hline => absurd (Json.isPlain_jsonString key _ hline) (by decide)

theorem shifted_commaList (parts : List String) :
    shifted (commaList parts) = commaList (parts.map shifted) :=
  shifted_intercalate ", " parts

theorem shifted_entryText (key text : String) :
    shifted (entryText key text) = entryText key (shifted text) := by
  have hkey : OneLine (String.ofList (Text.jsonString key) ++ ": ") :=
    (oneLine_jsonString key).append (by decide)
  rw [entryText, entryText, shifted_append, shifted_of_oneLine hkey]

theorem shifted_embedded {v : Value} (hv : Unbroken h v) (text : String) :
    shifted (embedded v text) = embedded v (shifted text) := by
  unfold embedded
  split
  · next handle member s =>
    have hshown : OneLine s ∧ OneLine member.text := hv
    exact shifted_of_oneLine hshown.2
  · rfl

theorem margin_shifted_line (depth : Nat) (text : String) :
    margin 1 ++ shifted (margin depth ++ text) = margin (depth + 1) ++ shifted text := by
  rw [shifted_append, shifted_of_oneLine (oneLine_margin depth), margin_succ depth,
    String.append_assoc]

/-- A shift goes in front of the line of each entry and of the last line. -/
theorem shifted_linesText (depth : Nat) (entries : List String) :
    shifted (linesText depth entries) = linesText (depth + 1) (entries.map shifted) := by
  cases entries with
  | nil => exact shifted_of_oneLine (show OneLine "\x7b\x7d" by decide)
  | cons entry entries =>
    have hopen : shifted "\x7b\n" = "\x7b\n" ++ margin 1 := rfl
    have hgap : shifted ",\n" = ",\n" ++ margin 1 := rfl
    have hend : shifted "\n" = "\n" ++ margin 1 := rfl
    have hclose : shifted "\x7d" = "\x7d" := rfl
    have hlines : (((entry :: entries).map (margin (depth + 1) ++ ·)).map shifted).map
          (margin 1 ++ ·)
        = ((entry :: entries).map shifted).map (margin (depth + 1 + 1) ++ ·) := by
      rw [List.map_map, List.map_map, List.map_map]
      exact List.map_congr_left fun text _ => margin_shifted_line (depth + 1) text
    have hbehind := intercalate_behind ",\n" (margin 1) (shifted (margin (depth + 1) ++ entry))
      ((entries.map (margin (depth + 1) ++ ·)).map shifted)
    calc shifted (linesText depth (entry :: entries))
        = "\x7b\n" ++ (margin 1 ++ (",\n" ++ margin 1).intercalate
            (((entry :: entries).map (margin (depth + 1) ++ ·)).map shifted)) ++ "\n"
            ++ (margin 1 ++ margin depth) ++ "\x7d" := by
          rw [linesText, shifted_append, shifted_append, shifted_append, shifted_append,
            shifted_intercalate, hopen, hgap, hend, hclose,
            shifted_of_oneLine (oneLine_margin depth)]
          simp only [String.append_assoc]
          exact nofun
      _ = linesText (depth + 1) ((entry :: entries).map shifted) := by
          rw [List.map_cons, List.map_cons, hbehind, ← margin_succ, ← List.map_cons,
            ← List.map_cons, hlines, List.map_cons, linesText]
          exact nofun

theorem kindText_succ {partText : Nat → Value → String} {v : Value} {k : Kind}
    (hv : Unbroken h v) (hk : h.kind? v = some k) (hshown : ∀ part ∈ k.parts, Unbroken h part)
    (hparts : ∀ part ∈ k.parts, ∀ depth,
      partText (depth + 1) part = shifted (partText depth part)) (depth : Nat) :
    kindText h partText (depth + 1) (h.resolve v) k
      = shifted (kindText h partText depth (h.resolve v) k) := by
  rw [Unbroken, hk] at hv
  have hmembers (members : List Value) (hm : ∀ part ∈ members, part ∈ k.parts) :
      members.map (partText (depth + 1)) = (members.map (partText depth)).map shifted := by
    rw [List.map_map]
    exact List.map_congr_left fun part hp => hparts part (hm part hp) depth
  cases k with
  | atom name => exact (shifted_of_oneLine hv.1).symm
  | predicate =>
    rw [resolve_of_predicate h hk]
    exact (shifted_of_oneLine hv).symm
  | pattern p =>
    have hslash : OneLine "/" := by decide
    exact (shifted_of_oneLine ((hslash.append hv).append hslash)).symm
  | array members =>
    have hopen : shifted "[" = "[" := rfl
    have hclose : shifted "]" = "]" := rfl
    rw [kindText, kindText, hmembers members fun _ hp => hp, shifted_append, shifted_append,
      shifted_commaList, hopen, hclose]
  | union members =>
    have hgap : shifted " | " = " | " := rfl
    rw [kindText, kindText, hmembers members fun _ hp => hp, shifted_intercalate, hgap]
  | object entries =>
    rw [kindText, kindText, shifted_linesText, List.map_map]
    refine congrArg (linesText (depth + 1)) (List.map_congr_left fun e he => ?_)
    rw [Function.comp_apply, shifted_entryText,
      shifted_embedded (hshown e.2 (Kind.mem_parts_object he)),
      hparts e.2 (Kind.mem_parts_object he) (depth + 1)]

/-- By induction on the schema, links followed. -/
theorem Legible.renderAt_succ {schema : Value} (hs : Legible h schema) :
    ∀ depth, h.renderAt (h.size + 1) (depth + 1) schema
      = shifted (h.renderAt (h.size + 1) depth schema) := by
  refine Legible.induction (motive := fun v => ∀ depth, h.renderAt (h.size + 1) (depth + 1) v
    = shifted (h.renderAt (h.size + 1) depth v)) ?_ hs
  intro v k hv hk ih depth
  rw [renderAt_eq_kindText hv hk, renderAt_eq_kindText hv hk]
  exact kindText_succ hv.own hk (fun part hp => (ih part hp).1.own) (fun part hp => (ih part hp).2)
    depth

theorem Legible.renderAt_eq_shifted {schema : Value} (hs : Legible h schema) (depth : Nat) :
    h.renderAt (h.size + 1) depth schema = shifted^[depth] (h.render schema) := by
  induction depth with
  | zero => rfl
  | succ depth ih => rw [hs.renderAt_succ, ih, Function.iterate_succ_apply']

/-- A schema shows its parts as they are by themselves, shifted once if it is an object. -/
theorem Legible.render_eq {schema : Value} {k : Kind} (hs : Legible h schema)
    (hk : h.kind? schema = some k) :
    h.render schema
      = kindText h (fun depth part => shifted^[depth] (h.render part)) 0 (h.resolve schema) k := by
  have hparts (part : Value) (hp : part ∈ k.parts) (depth : Nat) :
      h.renderAt (h.size + 1) depth part = shifted^[depth] (h.render part) :=
    (hs.part hk hp).renderAt_eq_shifted depth
  rw [Heap.render, renderAt_eq_kindText hs hk, kindText_congr hparts]

/-! ## Schemas inside schemas -/

/-- A schema inside a schema, links followed, and how many objects it is in. -/
inductive Nested (h : Heap) (node : Value) : (objects : Nat) → Value → Prop
  | here : Nested h node 0 node
  | item {v part : Value} {members : List Value} {objects : Nat}
      (kind : h.kind? v = some (.array members)) (mem : part ∈ members)
      (inside : Nested h node objects part) : Nested h node objects v
  | member {v part : Value} {members : List Value} {objects : Nat}
      (kind : h.kind? v = some (.union members)) (mem : part ∈ members)
      (inside : Nested h node objects part) : Nested h node objects v
  | property {v : Value} {entries : List (Value × Value)} {e : Value × Value} {objects : Nat}
      (kind : h.kind? v = some (.object entries)) (mem : e ∈ entries)
      (inside : Nested h node objects e.2) : Nested h node (objects + 1) v

theorem shows_linesText (depth : Nat) {text : String} {entries : List String}
    (ht : text ∈ entries) : Shows text (linesText depth entries) := by
  cases entries with
  | nil => cases ht
  | cons entry entries =>
    have hline : Shows text (margin (depth + 1) ++ text) := ⟨margin (depth + 1), "", by simp⟩
    have hlines := hline.trans (.intercalate ",\n"
      (List.mem_map_of_mem (f := (margin (depth + 1) ++ ·)) ht))
    refine hlines.trans ⟨"\x7b\n", "\n" ++ margin depth ++ "\x7d", ?_⟩
    rw [linesText]
    · simp only [String.append_assoc]
    · exact nofun

/-- Nothing but a type name is shown otherwise inside an object. -/
theorem embedded_eq {v : Value} (hv : ∀ name, h.kind? v ≠ some (.atom name)) (text : String) :
    embedded v text = text := by
  unfold embedded
  split
  · exact absurd rfl (hv _)
  · rfl

theorem Nested.not_atom {node schema : Value} {objects : Nat} {entries : List (Value × Value)}
    (hn : Nested h node objects schema) (hnode : h.kind? node = some (.object entries))
    (name : String) : h.kind? schema ≠ some (.atom name) := by
  intro hatom
  cases hn with
  | here => cases hnode.symm.trans hatom
  | item kind _ _ => cases kind.symm.trans hatom
  | member kind _ _ => cases kind.symm.trans hatom
  | property kind _ _ => cases kind.symm.trans hatom

theorem Nested.shows {node schema : Value} {objects : Nat} {entries : List (Value × Value)}
    (hn : Nested h node objects schema) (hnode : h.kind? node = some (.object entries))
    (hs : Legible h schema) :
    Shows (shifted^[objects] (h.render node)) (h.render schema) := by
  induction hn with
  | here => exact .refl _
  | @item v part members objects kind mem _ ih =>
    have hpart : Shows (h.render part) (commaList (members.map h.render)) :=
      .intercalate ", " (List.mem_map_of_mem mem)
    rw [hs.render_eq kind, kindText]
    exact ((ih (hs.part kind mem)).trans hpart).trans (.inside "[" _ "]")
  | @member v part members objects kind mem _ ih =>
    have hpart : Shows (h.render part) (String.intercalate " | " (members.map h.render)) :=
      .intercalate " | " (List.mem_map_of_mem mem)
    rw [hs.render_eq kind, kindText]
    exact (ih (hs.part kind mem)).trans hpart
  | @property v entries e objects kind mem inside ih =>
    have hpart := ih (hs.part kind (Kind.mem_parts_object mem))
    rw [hs.render_eq kind, kindText, Function.iterate_succ_apply']
    refine hpart.shifted.trans (.trans ?_ (shows_linesText 0 (List.mem_map_of_mem mem)))
    rw [embedded_eq (inside.not_atom hnode)]
    exact ⟨String.ofList (Text.jsonString (h.plain e.1)) ++ ": ", "", by simp [entryText]⟩

/-- The text of a schema one level deeper is its text with four blanks after each line end, if it is
well formed and has no line ends in type names, patterns and names of predicates; in keys they are
escaped. So an object schema inside the schema, in however many objects, arrays and unions, is shown
as it is by itself, shifted once for each object that it is in. -/
theorem renderAt_succ_depth {schema : Value} (wellFormed : WellFormed h schema)
    (unbroken : ∀ node, Within h node schema → Unbroken h node) :
    (∀ depth, h.renderAt (h.size + 1) (depth + 1) schema
        = shifted (h.renderAt (h.size + 1) depth schema)) ∧
      ∀ node entries objects, Nested h node objects schema →
        h.kind? node = some (.object entries) →
          Shows (shifted^[objects] (h.render node)) (h.render schema) := by
  have hs : Legible h schema := ⟨wellFormed, unbroken⟩
  exact ⟨hs.renderAt_succ, fun node entries objects hn hnode => hn.shows hnode hs⟩

theorem Legible.ofKind {schema : Value} {k : Kind} (hk : h.kind? schema = some k)
    (own : Unbroken h schema) (parts : ∀ part ∈ k.parts, Legible h part) : Legible h schema :=
  ⟨.intro hk fun part hp => (parts part hp).wellFormed,
    forall_within_of_kind hk own fun part hp => (parts part hp).unbroken⟩

def crateHeap : Heap := .ofCells #[.mapping [(.str "width", .str "number")]]

/-- A shared object schema, right in an object and in a list in a union under a key of two lines. -/
def crateSchema : Value :=
  .mapping [(.str "size", .link 0), (.str "in\nside", .union [.str "undefined", .list [.link 0]])]

theorem crateSchema_legible : Legible crateHeap crateSchema := by
  have atom {name : String} (hn : OneLine name) : Legible crateHeap (.str name) :=
    .ofKind (k := .atom name) rfl ⟨hn, hn⟩ nofun
  have size : Legible crateHeap (.link 0) := by
    refine .ofKind (k := .object [(.str "width", .str "number")]) rfl ?_ ?_
    · exact List.forall_mem_singleton.mpr ⟨"width", rfl⟩
    · exact List.forall_mem_singleton.mpr (atom (by decide))
  have list : Legible crateHeap (.list [.link 0]) :=
    .ofKind (k := .array [.link 0]) rfl trivial (List.forall_mem_singleton.mpr size)
  have union : Legible crateHeap (.union [.str "undefined", .list [.link 0]]) :=
    .ofKind (k := .union [.str "undefined", .list [.link 0]]) rfl trivial
      (List.forall_mem_cons.mpr ⟨atom (by decide), List.forall_mem_singleton.mpr list⟩)
  refine .ofKind (k := .object [(.str "size", .link 0),
    (.str "in\nside", .union [.str "undefined", .list [.link 0]])]) rfl ?_ ?_
  · exact List.forall_mem_cons.mpr ⟨⟨"size", rfl⟩, List.forall_mem_singleton.mpr ⟨"in\nside", rfl⟩⟩
  · exact List.forall_mem_cons.mpr ⟨size, List.forall_mem_singleton.mpr union⟩

theorem crateSchema_nested : Nested crateHeap (.link 0) 1 crateSchema :=
  .property (e := (.str "in\nside", .union [.str "undefined", .list [.link 0]])) rfl
    (List.mem_cons_of_mem _ (List.mem_singleton_self _))
    (.member rfl (List.mem_cons_of_mem _ (List.mem_singleton_self _))
      (.item rfl (List.mem_singleton_self _) .here))

theorem renderAt_succ_depth_crate :
    WellFormed crateHeap crateSchema ∧
      (∀ node, Within crateHeap node crateSchema → Unbroken crateHeap node) ∧
      crateHeap.render (.link 0) = "\x7b\n    \"width\": number\n\x7d" ∧
      crateHeap.renderAt 2 6 crateSchema = shifted (crateHeap.renderAt 2 5 crateSchema) ∧
      Shows (shifted (crateHeap.render (.link 0))) (crateHeap.render crateSchema) := by
  have hs := crateSchema_legible
  obtain ⟨hdepth, hnested⟩ := renderAt_succ_depth hs.wellFormed hs.unbroken
  exact ⟨hs.wellFormed, hs.unbroken, by decide, hdepth 5, hnested _ _ 1 crateSchema_nested rfl⟩

end Conform
