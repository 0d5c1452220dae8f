import Conform.Proofs.Matching.Closed
/-!
# What an object match asks for

Matching an object leaves two things to whoever it works for: to test what is read under a declared
name, and to report the object as a whole. Whatever the answers are, and however they depend on what
was asked before, the questions are the same: the declared properties in their order, up to the
first that fails, and at most one report. Main statement: `matchAgainst_asks`.
-/

set_option autoImplicit false

namespace Conform

/-- Matches the declared properties and, in a closed match, refuses owners of any other. -/
def matchProperties {m : Type → Type} [Monad m] {ρ : Type} (h : Heap) (closed : Bool)
    (read : Value → m Value) (refuse : m ρ) (owned : List Value) (declared : List (Declared m ρ)) :
    m (Option ρ) :=
  if closed then matchClosed h read refuse owned declared else matchOpen read declared

/-- What a validator does with an object. -/
theorem matchObject_eq (s : Setting) (w : Validator) {value : Value}
    (hplain : (!value.isPlainObject || s.heap.isArray value) = false) (known : Value)
    (declared : List (Declared Validation Mismatch)) :
    matchObject s w known value declared
      = matchProperties s.heap w.closed (s.read value) (w.refuse known value)
        (s.heap.ownNames value) declared := by
  rw [matchObject, hplain, if_neg Bool.false_ne_true]
  rfl

/-! ## Services -/

/-- What is read under a declared name, with the schema declared for it. -/
structure Visit where
  name : Value
  schema : Value
  read : Value

inductive Request where
  | property (visit : Visit)
  | mismatch (value schema : Value)

/-- Any answers to requests, which may depend on all that was requested before. -/
structure Service (ρ : Type) where
  /-- Nothing if a property passes. -/
  answer : (before : List Request) → Visit → Option ρ
  report : (before : List Request) → (value schema : Value) → ρ

/-- Computations that keep a record of their requests. -/
abbrev Asking : Type → Type := StateT (List Request) (Except Failure)

namespace Service

variable {ρ : Type} (service : Service ρ)

def property (name schema read : Value) : Asking (Option ρ) := do
  let before ← get
  set (before ++ [.property ⟨name, schema, read⟩])
  pure (service.answer before ⟨name, schema, read⟩)

def mismatch (value schema : Value) : Asking ρ := do
  let before ← get
  set (before ++ [.mismatch value schema])
  pure (service.report before value schema)

/-- The properties that entries declare, each tested by the service. -/
def declared (entries : List (Value × Value)) : List (Declared Asking ρ) :=
  entries.map fun e => ⟨e.1, service.property e.1 e.2⟩

end Service

/-- Matches the properties of a value against an object schema, with the tests and the report left
to a service. -/
def matchAgainst {ρ : Type} (h : Heap) (service : Service ρ) (closed : Bool)
    (schema value : Value) : Asking (Option ρ) :=
  matchProperties h closed (fun name => StateT.lift (h.property value name))
    (service.mismatch value schema) (h.ownNames value)
    (service.declared ((h.entries? schema).getD []))

/-! ## Visits -/

/-- The declared names in order, each with its schema and what is read under it. -/
def Heap.visits (h : Heap) (value : Value) (entries : List (Value × Value)) : List Visit :=
  entries.map fun e => ⟨e.1, e.2, (h.property value e.1).toOption.getD .undefined⟩

namespace Service

variable {ρ : Type}

/-- After so many of the visits the service has given an answer, or all passed: none but the last
of them did. -/
inductive Stops (service : Service ρ) : (before : List Request) → (visits : List Visit) →
    (count : Nat) → (found : Option ρ) → Prop
  | passed {before : List Request} : Stops service before [] 0 none
  | found {before : List Request} {visit : Visit} {rest : List Visit} {r : ρ}
      (answer : service.answer before visit = some r) :
      Stops service before (visit :: rest) 1 (some r)
  | next {before : List Request} {visit : Visit} {rest : List Visit} {count : Nat}
      {found : Option ρ} (answer : service.answer before visit = none)
      (stops : Stops service (before ++ [.property visit]) rest count found) :
      Stops service before (visit :: rest) (count + 1) found

/-- Visits only pass to their end. -/
theorem Stops.count_of_none {service : Service ρ} {before : List Request} {visits : List Visit}
    {count : Nat} (h : service.Stops before visits count none) : count = visits.length := by
  generalize hfound : (none : Option ρ) = found at h
  induction h with
  | passed => rfl
  | found answer => cases hfound
  | next answer stops ih => exact congrArg Nat.succ (ih hfound)

theorem Stops.unique {service : Service ρ} {before : List Request} {visits : List Visit}
    {count count' : Nat} {found found' : Option ρ} (h : service.Stops before visits count found)
    (h' : service.Stops before visits count' found') : count = count' ∧ found = found' := by
  induction h generalizing count' with
  | passed =>
    cases h'
    exact ⟨rfl, rfl⟩
  | found answer =>
    cases h' with
    | found answer' => exact ⟨rfl, answer.symm.trans answer'⟩
    | next answer' stops => cases answer.symm.trans answer'
  | next answer stops ih =>
    cases h' with
    | found answer' => cases answer.symm.trans answer'
    | next answer' stops' =>
      obtain ⟨rfl, rfl⟩ := ih stops'
      exact ⟨rfl, rfl⟩

/-- The service finds nothing in any of the visits. -/
def PassesAll (service : Service ρ) (visits : List Visit) : Prop :=
  service.Stops [] visits visits.length none

end Service

section

variable {ρ : Type} {h : Heap} {value : Value} {entries : List (Value × Value)}

/-- The visits that are made, as requests. -/
def asked (visits : List Visit) (count : Nat) : List Request :=
  (visits.take count).map .property

/-- One property: it is read, and the service is asked about what was read. -/
theorem property_run (service : Service ρ) (schema : Value) {name read : Value}
    (hr : h.property value name = .ok read) (before : List Request) :
    (StateT.lift (h.property value name) >>= service.property name schema).run before
      = .ok (service.answer before ⟨name, schema, read⟩,
          before ++ [.property ⟨name, schema, read⟩]) := by
  rw [hr]
  rfl

/-- The declared properties are asked about in order, up to the first in which something is
found. -/
theorem visitDeclared_run (service : Service ρ)
    (readable : ∀ e ∈ entries, ∃ read, h.property value e.1 = .ok read) (before : List Request) :
    ∃ count found, service.Stops before (h.visits value entries) count found ∧
      (visitDeclared (fun name => StateT.lift (h.property value name))
          (service.declared entries)).run before
        = .ok (found, before ++ asked (h.visits value entries) count) := by
  induction entries generalizing before with
  | nil => exact ⟨0, none, .passed, by simp [visitDeclared, Service.declared, asked]; rfl⟩
  | cons e entries ih =>
    obtain ⟨⟨read, hr⟩, hrest⟩ := List.forall_mem_cons.mp readable
    have hrun := property_run service e.2 hr before
    have hvisits : h.visits value (e :: entries) = ⟨e.1, e.2, read⟩ :: h.visits value entries := by
      rw [Heap.visits, List.map_cons, hr]
      rfl
    rw [hvisits]
    cases hanswer : service.answer before ⟨e.1, e.2, read⟩ with
    | some r =>
      refine ⟨1, some r, .found hanswer, ?_⟩
      rw [visitDeclared, Service.declared, List.map_cons, List.findSomeM?_cons, StateT.run_bind,
        hrun, hanswer]
      rfl
    | none =>
      obtain ⟨count, found, stops, hrun'⟩ := ih hrest (before ++ [.property ⟨e.1, e.2, read⟩])
      refine ⟨count + 1, found, .next hanswer stops, ?_⟩
      rw [visitDeclared, Service.declared, List.map_cons, List.findSomeM?_cons, StateT.run_bind,
        hrun, hanswer]
      refine hrun'.trans ?_
      rw [asked, asked, List.take_succ_cons, List.map_cons, List.append_assoc,
        List.singleton_append]

end

/-! ## Different names -/

/-- Names to which no value is equal at once. -/
def Heap.Apart (h : Heap) (name other : Value) : Prop :=
  ∀ v, ¬ (h.equal name v = true ∧ h.equal other v = true)

theorem apart_texts (h : Heap) {s t : String} (hne : s ≠ t) : h.Apart (.str s) (.str t) :=
  fun _ hv => hne (Option.some.inj
    ((text?_of_str_equal h hv.1).symm.trans (text?_of_str_equal h hv.2)))

theorem pairwise_apart_of_keyed {h : Heap} {names : List Value} (hn : Keyed h names) :
    names.Pairwise h.Apart := by
  have honce := hn.onLeft
  clear hn
  induction names with
  | nil => exact .nil
  | cons name names ih =>
    refine .cons (fun other ho v hv => ?_) (ih fun v => ?_)
    · have hpos : 0 < names.countP fun name => h.equal name v :=
        List.countP_pos_iff.mpr ⟨other, ho, hv.2⟩
      have hle := honce v
      rw [List.countP_cons, if_pos hv.1] at hle
      omega
    · have hle := honce v
      rw [List.countP_cons] at hle
      omega

/-- The names that a value owns are different ones, unless it is a frame. -/
theorem apart_ownNames {h : Heap} {v : Value} (hv : WellKeyed h v)
    (frameless : ∀ handle columns index, v ≠ .object handle (.frame columns index)) :
    (h.ownNames v).Pairwise h.Apart :=
  pairwise_apart_of_keyed (keyed_ownNames hv frameless)

theorem countP_le_one_of_pairwise {α : Type} {p : α → Bool} {l : List α}
    (hl : l.Pairwise fun a b => ¬ (p a = true ∧ p b = true)) : l.countP p ≤ 1 := by
  induction hl with
  | nil => exact Nat.zero_le 1
  | @cons a l hnew _ ih =>
    rw [List.countP_cons]
    by_cases ha : p a = true
    · have hnone : l.countP p = 0 :=
        List.countP_eq_zero.mpr fun b hb hpb => hnew b hb ⟨ha, hpb⟩
      simp [hnone, ha]
    · rw [if_neg ha]
      exact ih

section

variable {ρ : Type} {h : Heap} {schema value : Value} {entries : List (Value × Value)}

/-- Each of several different names takes a declared name of its own. -/
theorem length_le_of_declared {owned : List Value} (different : owned.Pairwise h.Apart)
    (declared : ∀ name ∈ owned, ¬ h.Undeclared entries name) : owned.length ≤ entries.length := by
  have once : ∀ e ∈ entries, owned.countP (fun name => h.equal name e.1) ≤ 1 :=
    fun e _ => countP_le_one_of_pairwise (different.imp fun apart => apart e.1)
  have hall : (owned.countP fun name => entries.any fun e => h.equal name e.1) = owned.length := by
    rw [List.countP_eq_length]
    intro name hn
    by_contra hnot
    refine declared name hn fun e he => ?_
    rw [List.any_eq_true] at hnot
    exact Bool.eq_false_iff.mpr fun hequal => hnot ⟨e, he, hequal⟩
  have hle := countP_any_le_countP_any
    (r := fun (e : Value × Value) name => h.equal name e.1) once
  rw [hall] at hle
  exact Nat.le_trans hle List.countP_le_length

theorem matchAgainst_open_run (service : Service ρ) (hs : h.entries? schema = some entries)
    (readable : ∀ e ∈ entries, ∃ read, h.property value e.1 = .ok read) :
    ∃ count found, service.Stops [] (h.visits value entries) count found ∧
      (matchAgainst h service false schema value).run []
        = .ok (found, asked (h.visits value entries) count) := by
  have hvisits := visitDeclared_run service readable []
  rw [matchAgainst, hs]
  exact hvisits

theorem matchAgainst_overfull_run (service : Service ρ) (hs : h.entries? schema = some entries)
    (overfull : entries.length < (h.ownNames value).length) :
    (matchAgainst h service true schema value).run []
      = .ok (some (service.report [] value schema), [.mismatch value schema]) := by
  have hlength : (service.declared entries).length = entries.length := List.length_map ..
  rw [matchAgainst, hs]
  simp only [Option.getD_some, matchProperties, if_true, matchClosed, hlength, if_pos overfull]
  rfl

/-- With room for all owned names the declared properties are visited, and if they pass, an owned
name that is not declared is reported. -/
theorem matchAgainst_of_room (service : Service ρ) (hs : h.entries? schema = some entries)
    (room : (h.ownNames value).length ≤ entries.length) :
    matchAgainst h service true schema value
      = visitDeclared (fun name => StateT.lift (h.property value name)) (service.declared entries)
        >>= fun
        | some r => pure (some r)
        | none =>
          if (h.ownNames value).all fun name => entries.any fun e => h.equal name e.1 then pure none
          else some <$> service.mismatch value schema := by
  have hlength : (service.declared entries).length = entries.length := List.length_map ..
  have hdeclared (name : Value) : isDeclared h (service.declared entries) name
      = entries.any fun e => h.equal name e.1 := by
    rw [isDeclared, Service.declared, List.any_map]
    rfl
  rw [matchAgainst, hs]
  simp only [Option.getD_some, matchProperties, if_true, matchClosed, hlength,
    if_neg (Nat.not_lt.mpr room), funext hdeclared]
  rfl

/-- What a closed match asks for and gives: so many of the visits, and at most one report. -/
structure ClosedOutcome (h : Heap) (service : Service ρ) (schema value : Value)
    (entries : List (Value × Value)) (count : Nat) (reported : Bool) (found : Option ρ) : Prop where
  reported_iff : reported = true ↔ entries.length < (h.ownNames value).length ∨
    service.PassesAll (h.visits value entries) ∧
      ∃ name ∈ h.ownNames value, h.Undeclared entries name
  /-- The report is the result. -/
  report : reported = true →
    found = some (service.report (asked (h.visits value entries) count) value schema)
  overfull : entries.length < (h.ownNames value).length → count = 0
  /-- Without a report, the result is the answer at which the visits stop. -/
  room : (h.ownNames value).length ≤ entries.length → ∃ answer,
    service.Stops [] (h.visits value entries) count answer ∧ (reported = false → found = answer)
  none_iff : (h.ownNames value).Pairwise h.Apart → (found = none ↔
    service.PassesAll (h.visits value entries) ∧
      ∀ name ∈ h.ownNames value, ¬ h.Undeclared entries name)

theorem closedOutcome_of_overfull (service : Service ρ)
    (overfull : entries.length < (h.ownNames value).length) :
    ClosedOutcome h service schema value entries 0 true
      (some (service.report [] value schema)) where
  reported_iff := ⟨fun _ => .inl overfull, fun _ => rfl⟩
  report _ := rfl
  overfull _ := rfl
  room room := absurd room (Nat.not_le.mpr overfull)
  none_iff different := by
    refine ⟨nofun, fun ⟨_, declared⟩ => ?_⟩
    exact absurd (length_le_of_declared different declared) (Nat.not_le.mpr overfull)

theorem closedOutcome_of_found {service : Service ρ}
    (room : (h.ownNames value).length ≤ entries.length) {count : Nat} {r : ρ}
    (stops : service.Stops [] (h.visits value entries) count (some r)) :
    ClosedOutcome h service schema value entries count false (some r) := by
  have hfit : ¬ entries.length < (h.ownNames value).length := Nat.not_lt.mpr room
  have hpass : ¬ service.PassesAll (h.visits value entries) :=
    fun hall => nomatch (stops.unique hall).2
  exact
    { reported_iff := ⟨nofun, fun h => (h.elim hfit fun h => hpass h.1).elim⟩
      report := nofun
      overfull := fun h => absurd h hfit
      room := fun _ => ⟨some r, stops, fun _ => rfl⟩
      none_iff := fun _ => ⟨nofun, fun h => absurd h.1 hpass⟩ }

theorem closedOutcome_of_passed {service : Service ρ}
    (room : (h.ownNames value).length ≤ entries.length)
    (hpass : service.PassesAll (h.visits value entries))
    (declared : ∀ name ∈ h.ownNames value, ¬ h.Undeclared entries name) :
    ClosedOutcome h service schema value entries (h.visits value entries).length false none := by
  have hfit : ¬ entries.length < (h.ownNames value).length := Nat.not_lt.mpr room
  exact
    { reported_iff := ⟨nofun, fun h =>
        (h.elim hfit fun ⟨_, name, hn, hu⟩ => declared name hn hu).elim⟩
      report := nofun
      overfull := fun h => absurd h hfit
      room := fun _ => ⟨none, hpass, fun _ => rfl⟩
      none_iff := fun _ => ⟨fun _ => ⟨hpass, declared⟩, fun _ => rfl⟩ }

theorem closedOutcome_of_undeclared {service : Service ρ}
    (room : (h.ownNames value).length ≤ entries.length)
    (hpass : service.PassesAll (h.visits value entries)) {name : Value}
    (hn : name ∈ h.ownNames value) (hu : h.Undeclared entries name) :
    ClosedOutcome h service schema value entries (h.visits value entries).length true
      (some (service.report (asked (h.visits value entries) (h.visits value entries).length)
        value schema)) where
  reported_iff := ⟨fun _ => .inr ⟨hpass, name, hn, hu⟩, fun _ => rfl⟩
  report _ := rfl
  overfull overfull := absurd room (Nat.not_le.mpr overfull)
  room _ := ⟨none, hpass, nofun⟩
  none_iff _ := ⟨nofun, fun ⟨_, declared⟩ => absurd hu (declared name hn)⟩

theorem matchAgainst_closed_run (service : Service ρ) (hs : h.entries? schema = some entries)
    (readable : ∀ e ∈ entries, ∃ read, h.property value e.1 = .ok read) :
    ∃ count reported found,
      (matchAgainst h service true schema value).run []
        = .ok (found, asked (h.visits value entries) count
          ++ if reported then [.mismatch value schema] else []) ∧
      ClosedOutcome h service schema value entries count reported found := by
  rcases Nat.lt_or_ge entries.length (h.ownNames value).length with overfull | room
  · exact ⟨0, true, _, matchAgainst_overfull_run service hs overfull,
      closedOutcome_of_overfull service overfull⟩
  · obtain ⟨count, answer, stops, hvisits⟩ := visitDeclared_run service readable []
    have hrun := congrArg (StateT.run · []) (matchAgainst_of_room service hs room)
    simp only [StateT.run_bind, hvisits, List.nil_append] at hrun
    cases answer with
    | some r =>
      refine ⟨count, false, some r, ?_, closedOutcome_of_found room stops⟩
      rw [if_neg Bool.false_ne_true, List.append_nil]
      exact hrun
    | none =>
      obtain rfl := stops.count_of_none
      cases hall : (h.ownNames value).all fun name => entries.any fun e => h.equal name e.1 with
      | true =>
        have declared (name : Value) (hn : name ∈ h.ownNames value) :
            ¬ h.Undeclared entries name := by
          intro hu
          cases hall.symm.trans (all_declared_eq_false_iff.mpr ⟨name, hn, hu⟩)
        refine ⟨_, false, none, ?_, closedOutcome_of_passed room stops declared⟩
        rw [hall] at hrun
        rw [if_neg Bool.false_ne_true, List.append_nil]
        exact hrun
      | false =>
        obtain ⟨name, hn, hu⟩ := all_declared_eq_false_iff.mp hall
        refine ⟨_, true, _, ?_, closedOutcome_of_undeclared room stops hn hu⟩
        rw [hall] at hrun
        exact hrun

/-- What a match asks for, when reading the declared properties does not fail. It asks about these
in their order, up to the first in which something is found, and an open match asks for nothing
else. A closed match asks for at most one report, which is then its result: instead of the visits
if more names are owned than are declared, and after them if all pass and a name is owned that is
not declared. Where no two owned names are the same, it finds nothing just if all declared
properties pass and all owned names are declared. -/
theorem matchAgainst_asks (service : Service ρ) (hs : h.entries? schema = some entries)
    (readable : ∀ e ∈ entries, ∃ read, h.property value e.1 = .ok read) :
    (∃ count found, service.Stops [] (h.visits value entries) count found ∧
      (matchAgainst h service false schema value).run []
        = .ok (found, asked (h.visits value entries) count)) ∧
    ∃ count reported found,
      (matchAgainst h service true schema value).run []
        = .ok (found, asked (h.visits value entries) count
          ++ if reported then [.mismatch value schema] else []) ∧
      ClosedOutcome h service schema value entries count reported found :=
  ⟨matchAgainst_open_run service hs readable, matchAgainst_closed_run service hs readable⟩

end

/-! ## An example -/

/-- Finds something once it was asked twice, and reports how often it was asked. -/
def patientService : Service Nat where
  answer before _ := if before.length < 2 then none else some before.length
  report before _ _ := before.length

def formEntries : List (Value × Value) :=
  [(.str "a", .str "number"), (.str "b", .str "string")]

def form : Value := .mapping [(.str "b", .int 1), (.str "c", .int 2)]

theorem form_readable :
    ∀ e ∈ formEntries, ∃ read, Heap.empty.property form e.1 = .ok read :=
  List.forall_mem_cons.mpr ⟨⟨.undefined, rfl⟩, List.forall_mem_singleton.mpr ⟨.int 1, rfl⟩⟩

theorem form_names_apart : (Heap.empty.ownNames form).Pairwise Heap.empty.Apart := by
  have apart : Heap.empty.Apart (.str "b") (.str "c") := apart_texts _ (by decide)
  exact List.pairwise_pair.mpr apart

/-- Both properties of a form are asked about, then the form is reported for its other name. -/
theorem matchAgainst_form_asks :
    Heap.empty.entries? (.mapping formEntries) = some formEntries ∧
      (∀ e ∈ formEntries, ∃ read, Heap.empty.property form e.1 = .ok read) ∧
      (Heap.empty.ownNames form).Pairwise Heap.empty.Apart ∧
      (matchAgainst Heap.empty patientService true (.mapping formEntries) form).run []
        = .ok (some 2, [.property ⟨.str "a", .str "number", .undefined⟩,
          .property ⟨.str "b", .str "string", .int 1⟩, .mismatch form (.mapping formEntries)]) ∧
      (∃ count found,
        patientService.Stops [] (Heap.empty.visits form formEntries) count found ∧
          (matchAgainst Heap.empty patientService false (.mapping formEntries) form).run []
            = .ok (found, asked (Heap.empty.visits form formEntries) count)) ∧
      ∃ count reported found,
        (matchAgainst Heap.empty patientService true (.mapping formEntries) form).run []
          = .ok (found, asked (Heap.empty.visits form formEntries) count
            ++ if reported then [.mismatch form (.mapping formEntries)] else []) ∧
        ClosedOutcome Heap.empty patientService (.mapping formEntries) form formEntries count
          reported found :=
  ⟨rfl, form_readable, form_names_apart, rfl, matchAgainst_asks patientService rfl form_readable⟩

end Conform
