import Conform.Document.Storage
import Conform.Proofs.Json.RoundTrip
import Conform.Proofs.Schema.Nesting
import Conform.Proofs.Value.Equality
import Conform.Proofs.Value.Opening
import Conform.Value.Unfolded
/-!
# Values as JSON

The JSON of a value says what JSON can say of it: absent members are left out, absent items and
numbers that are not finite become null, and tuples become lists. Its text is in ASCII and is read
back as just that. Main statement: `parseValue_jsonText`.
-/

set_option autoImplicit false

namespace Conform

open Json

/-! ## What JSON keeps -/

mutual

/-- What JSON keeps of a value without links. -/
def Value.inJson : Value → Value
  | .undefined => .null
  | .float x => if x.isFinite then .float x else .null
  | .list items => .list (itemsInJson items)
  | .tuple items => .list (itemsInJson items)
  | .mapping entries => .mapping (entriesInJson entries)
  | v => v

def itemsInJson : List Value → List Value
  | [] => []
  | v :: rest => v.inJson :: itemsInJson rest

def entriesInJson : List (Value × Value) → List (Value × Value)
  | [] => []
  | (_, .undefined) :: rest => entriesInJson rest
  | (k, v) :: rest => (k, v.inJson) :: entriesInJson rest

end

/-- Null, truth values, integers that have a text, texts, numbers that are not finite and what is
absent, in lists, tuples and mappings under texts. -/
inductive JsonData (h : Heap) : Value → Prop
  | undefined : JsonData h .undefined
  | null : JsonData h .null
  | bool (b : Bool) : JsonData h (.bool b)
  | int (n : Int) (short : isOverlong n = false) : JsonData h (.int n)
  | float {x : Double} (notFinite : x.isFinite = false) : JsonData h (.float x)
  | str (s : String) : JsonData h (.str s)
  | list {items : List Value} (each : ∀ item ∈ items, JsonData h item) : JsonData h (.list items)
  | tuple {items : List Value} (each : ∀ item ∈ items, JsonData h item) :
      JsonData h (.tuple items)
  | mapping {entries : List (Value × Value)} (named : Named entries)
      (each : ∀ e ∈ entries, JsonData h e.2) : JsonData h (.mapping entries)
  | link {a : Nat} (shared : JsonData h (h.cell a)) : JsonData h (.link a)

variable {h : Heap}

theorem JsonData.acyclic {v : Value} (hv : JsonData h v) : h.Acyclic v := by
  induction hv with
  | list _ ih | tuple _ ih =>
    refine acyclic_of_parts fun k hk part hp => ?_
    cases hk
    exact ih part hp
  | mapping _ _ ih =>
    refine acyclic_of_parts fun k hk part hp => ?_
    cases hk
    obtain ⟨e, he, rfl⟩ := List.mem_map.mp hp
    exact ih e he
  | @link a _ ih => exact acyclic_of_parts fun k hk part hp => ih.part (kind?_link h a ▸ hk) hp
  | str s =>
    refine acyclic_of_parts fun k hk part hp => ?_
    cases hk
    cases hp
  | _ => exact acyclic_of_parts fun k hk => nomatch hk

/-! ## The JSON of a value -/

/-- JSON that keeps of a value without links what JSON can keep. -/
structure Keeps (out : Option Json) (v : Value) : Prop where
  present : v ≠ .undefined
  holds : ∃ j, out = some j ∧ UniqueKeys isExact j ∧ j.toValue = v.inJson

section

variable {onLink : Nat → Option Json} {copy : Nat → Value}

theorem jsonItems_keeps {items : List Value}
    (each : ∀ item ∈ items, item ≠ .undefined →
      Keeps (jsonWith h onLink item) (unfoldWith copy item)) :
    ∃ found, jsonItems h onLink items = some found ∧ (∀ j ∈ found, UniqueKeys isExact j) ∧
      valuesOf found = itemsInJson (unfoldAll copy items) := by
  induction items with
  | nil => exact ⟨[], rfl, nofun, rfl⟩
  | cons item items ih =>
    obtain ⟨hitem, hitems⟩ := List.forall_mem_cons.mp each
    obtain ⟨found, hfound, hunique, hvalues⟩ := ih hitems
    by_cases hundefined : item = .undefined
    · subst hundefined
      refine ⟨.null :: found, ?_, List.forall_mem_cons.mpr ⟨.atom rfl, hunique⟩, ?_⟩
      · rw [jsonItems, hfound]
        rfl
      · rw [unfoldAll, itemsInJson, valuesOf, hvalues]
        rfl
    · obtain ⟨-, j, hj, hkeys, hvalue⟩ := hitem hundefined
      refine ⟨j :: found, ?_, List.forall_mem_cons.mpr ⟨hkeys, hunique⟩, ?_⟩
      · rw [jsonItems, hj, hfound]
        · rfl
        · exact hundefined
      · rw [unfoldAll, itemsInJson, valuesOf, hvalues, hvalue]

theorem jsonMembers_keeps {entries : List (Value × Value)} (named : Named entries)
    (each : ∀ e ∈ entries, e.2 ≠ .undefined →
      Keeps (jsonWith h onLink e.2) (unfoldWith copy e.2)) :
    ∃ found, jsonMembers h onLink entries = some found ∧
      ((found.map Prod.fst).map Value.str).Sublist (entries.map Prod.fst) ∧
      (∀ m ∈ found, UniqueKeys isExact m.2) ∧
      entriesOf found = entriesInJson (unfoldEntries copy entries) := by
  induction entries with
  | nil => exact ⟨[], rfl, .slnil, nofun, rfl⟩
  | cons e entries ih =>
    obtain ⟨he, hentries⟩ := List.forall_mem_cons.mp each
    obtain ⟨found, hfound, hnames, hunique, hvalues⟩ := ih named.tail hentries
    obtain ⟨name, hname⟩ := named.texts e (List.mem_cons_self ..)
    obtain ⟨key, v⟩ := e
    dsimp only at hname he
    subst hname
    by_cases hundefined : v = .undefined
    · subst hundefined
      exact ⟨found, hfound, hnames.cons _, hunique, hvalues⟩
    · obtain ⟨hpresent, j, hj, hkeys, hvalue⟩ := he hundefined
      refine ⟨(name, j) :: found, ?_, hnames.cons_cons _,
        List.forall_mem_cons.mpr ⟨hkeys, hunique⟩, ?_⟩
      · rw [jsonMembers, hj, hfound]
        · rfl
        · exact hundefined
      · rw [unfoldEntries, entriesInJson, entriesOf, hvalues, hvalue]
        exact hpresent

end

/-! ### Inside open containers -/

/-- The JSON of a value inside open containers keeps what its copy without links holds. -/
def KeepsInside (h : Heap) (links : Nat) (opened : List Nat) (v : Value) : Prop :=
  Keeps (h.jsonInside links opened v) (h.unfoldInside links opened v)

section

variable {links : Nat} {opened : List Nat}

theorem exists_inside_eq (h : Heap) (links : Nat) (opened : List Nat) : ∃ onLink copy,
    h.jsonInside links opened = jsonWith h onLink ∧
      h.unfoldInside links opened = unfoldWith copy := by
  cases links with
  | zero => exact ⟨_, _, rfl, rfl⟩
  | succ links => exact ⟨_, _, rfl, rfl⟩

theorem integerJson?_short {n : Int} (short : isOverlong n = false) :
    integerJson? n = some (.int n) := by
  rw [integerJson?, short, if_neg Bool.false_ne_true]

theorem keepsInside_int {n : Int} (short : isOverlong n = false) :
    KeepsInside h links opened (.int n) := by
  obtain ⟨onLink, copy, hjson, hcopy⟩ := exists_inside_eq h links opened
  rw [KeepsInside, hjson, hcopy]
  have hexact : isExact (.int n) = true := by rw [isExact, short, Bool.not_false]
  exact ⟨Value.noConfusion, .int n, integerJson?_short short, .atom hexact, rfl⟩

theorem keepsInside_float {x : Double} (hx : x.isFinite = false) :
    KeepsInside h links opened (.float x) := by
  obtain ⟨onLink, copy, hjson, hcopy⟩ := exists_inside_eq h links opened
  rw [KeepsInside, hjson, hcopy]
  refine ⟨nofun, .null, ?_, .atom rfl, ?_⟩
  · rw [jsonWith, Double.toJson, hx, if_neg Bool.false_ne_true]
  · show Value.null = if x.isFinite = true then Value.float x else Value.null
    rw [hx, if_neg Bool.false_ne_true]

theorem keepsInside_items {items : List Value}
    (each : ∀ item ∈ items, item ≠ .undefined → KeepsInside h links opened item) :
    KeepsInside h links opened (.list items) ∧ KeepsInside h links opened (.tuple items) := by
  obtain ⟨onLink, copy, hjson, hcopy⟩ := exists_inside_eq h links opened
  simp only [KeepsInside, hjson, hcopy] at each ⊢
  obtain ⟨found, hfound, hunique, hvalues⟩ := jsonItems_keeps each
  have hjson : (jsonItems h onLink items).map Json.array = some (.array found) := by
    rw [hfound]
    rfl
  have hvalue : (Json.array found).toValue = .list (itemsInJson (unfoldAll copy items)) :=
    congrArg Value.list hvalues
  exact ⟨⟨nofun, _, hjson, .array hunique, hvalue⟩, ⟨nofun, _, hjson, .array hunique, hvalue⟩⟩

theorem keepsInside_entries {entries : List (Value × Value)} (named : Named entries)
    (each : ∀ e ∈ entries, e.2 ≠ .undefined → KeepsInside h links opened e.2) :
    KeepsInside h links opened (.mapping entries) := by
  obtain ⟨onLink, copy, hjson, hcopy⟩ := exists_inside_eq h links opened
  simp only [KeepsInside, hjson, hcopy] at each ⊢
  obtain ⟨found, hfound, hnames, hunique, hentries⟩ := jsonMembers_keeps named each
  have hdistinct : (found.map Prod.fst).Nodup :=
    (named.distinct.sublist hnames).of_map Value.str
  refine ⟨nofun, .object found, ?_, .object hdistinct hunique, congrArg Value.mapping hentries⟩
  rw [jsonWith, hfound]
  rfl

/-- Both go on at a link that leads to a container which is not open yet. -/
theorem keepsInside_link {a : Nat} (hnew : opened.contains a = false)
    (hcell : KeepsInside h links (a :: opened) (h.cell a)) :
    KeepsInside h (links + 1) opened (.link a) := by
  rw [KeepsInside, Heap.jsonInside, jsonWith, Heap.unfoldInside, unfoldWith, hnew,
    if_neg Bool.false_ne_true, if_neg Bool.false_ne_true]
  exact hcell

theorem cell_ne_undefined (h : Heap) (a : Nat) : h.cell a ≠ .undefined := by
  rcases cell_cases h a with ⟨items, ha⟩ | ⟨entries, ha⟩ <;> rw [ha] <;> nofun

/-- By induction on the data; what is open already does not come again. -/
theorem JsonData.keepsInside {v : Value} (hv : JsonData h v) (hdefined : v ≠ .undefined)
    (hi : h.Inside links opened v) : KeepsInside h links opened v := by
  induction hv generalizing links opened with
  | undefined => exact absurd rfl hdefined
  | int n short => exact keepsInside_int short
  | float hx => exact keepsInside_float hx
  | list each ih => exact (keepsInside_items fun item hm hne => ih item hm hne (hi.part rfl hm)).1
  | tuple each ih => exact (keepsInside_items fun item hm hne => ih item hm hne (hi.part rfl hm)).2
  | mapping named each ih =>
    refine keepsInside_entries named fun e he hne => ih e he hne (hi.part rfl ?_)
    exact Kind.mem_parts_object he
  | @link a shared ih =>
    obtain ⟨hnew, m, rfl, hcell⟩ := hi.cell
    exact keepsInside_link hnew (ih (cell_ne_undefined h a) hcell)
  | null | bool b | str s =>
    obtain ⟨onLink, copy, hjson, hcopy⟩ := exists_inside_eq h links opened
    rw [KeepsInside, hjson, hcopy]
    exact ⟨nofun, _, rfl, .atom rfl, rfl⟩

end

/-! ## The text of a value -/

/-- The text of a value as JSON is in ASCII, and where no file has that text for a name, reading it
gives what JSON keeps of the value: absent members are dropped, absent items and numbers that are
not finite are null, tuples are lists, and all else is as it was. -/
theorem parseValue_jsonText {v : Value} (hv : JsonData h v) (hdefined : v ≠ .undefined) :
    ∃ text, h.jsonText? v = some text ∧ (∀ c ∈ text.toList, c.toNat < 0x80) ∧
      ∀ files : Files, files.isFile (.exactly text) = false →
        parseValue files text = .ok (h.unfold v).inJson := by
  obtain ⟨-, j, hj, hkeys, hvalue⟩ := hv.keepsInside hdefined (.start hv.acyclic)
  have hdense : JsonLayout.dense.Spaced := ⟨⟨0, rfl⟩, ⟨0, rfl⟩, nofun⟩
  have htext : h.jsonText? v = some (j.text .dense) := by
    rw [Heap.jsonText?, json?_eq, hj, Option.map_some]
  refine ⟨j.text .dense, htext, fun c hc => ?_, fun files hfile => ?_⟩
  · rw [Json.text, String.toList_ofList] at hc
    rcases isWritten_chars hdense hkeys 0 c hc with hplain | rfl
    · exact Nat.lt_of_lt_of_le hplain.2 (by decide)
    · decide
  · rw [parseValue, hfile, if_neg Bool.false_ne_true, readValue, read_text hdense hkeys]
    exact congrArg Except.ok hvalue

/-! ### An example -/

/-- A list that two places share. -/
def memoHeap : Heap := .ofCells #[.list [.undefined, .float .nan]]

def memo : Value :=
  .mapping [(.str "b", .tuple [.link 0, .int (-7), .str "é\n😀"]), (.str "gone", .undefined),
    (.str "a", .link 0)]

theorem memo_jsonData : JsonData memoHeap memo := by
  have shared : JsonData memoHeap (.link 0) :=
    .link (.list (List.forall_mem_cons.mpr
      ⟨.undefined, List.forall_mem_singleton.mpr (.float rfl)⟩))
  have first : JsonData memoHeap (.tuple [.link 0, .int (-7), .str "é\n😀"]) :=
    .tuple (List.forall_mem_cons.mpr
      ⟨shared, List.forall_mem_cons.mpr ⟨.int (-7) rfl, List.forall_mem_singleton.mpr (.str _)⟩⟩)
  have named : Named [(Value.str "b", Value.tuple [.link 0, .int (-7), .str "é\n😀"]),
      (.str "gone", .undefined), (.str "a", .link 0)] :=
    ⟨by simp, by simp⟩
  exact .mapping named (List.forall_mem_cons.mpr
    ⟨first, List.forall_mem_cons.mpr ⟨.undefined, List.forall_mem_singleton.mpr shared⟩⟩)

theorem parseValue_jsonText_memo :
    JsonData memoHeap memo ∧ memo ≠ .undefined ∧
      (memoHeap.unfold memo).inJson = .mapping
        [(.str "b", .list [.list [.null, .null], .int (-7), .str "é\n😀"]),
          (.str "a", .list [.null, .null])] ∧
      ∃ text, memoHeap.jsonText? memo = some text ∧ (∀ c ∈ text.toList, c.toNat < 0x80) ∧
        ∀ files : Files, files.isFile (.exactly text) = false →
          parseValue files text = .ok (memoHeap.unfold memo).inJson :=
  ⟨memo_jsonData, nofun, rfl, parseValue_jsonText memo_jsonData nofun⟩

end Conform
