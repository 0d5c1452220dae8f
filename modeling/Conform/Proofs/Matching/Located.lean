import Conform.Proofs.Matching.Surfacing
/-!
# Paths lead to values

The path of a validator is followed from the value that the validation was started with: an index
leads to an item of an array and a name to what is read under it. Whenever a predicate is called,
the path leads to the value that the predicate receives. This is said by putting a check of the path
ahead of every call of a predicate: a validation that is checked does what the validation does
unchecked. Main statement: `validateChecked_eq`.
-/

set_option autoImplicit false

namespace Conform

open Validation

/-! ## Following a path -/

namespace Heap

/-- What a step of a path leads to: an item of an array, or else what is read under a name. -/
def stepInto? (h : Heap) (v step : Value) : Option Value :=
  match h.items? v, step with
  | some items, .int (.ofNat i) => items[i]?
  | some _, _ => none
  | none, name => (h.property v name).toOption

def follow? (h : Heap) (v : Value) (path : List Value) : Option Value := path.foldlM h.stepInto? v

theorem stepInto?_index {h : Heap} {v : Value} {items : List Value} (hv : h.items? v = some items)
    (i : Nat) : h.stepInto? v (.int i) = items[i]? := by
  unfold stepInto?
  rw [hv]

theorem stepInto?_name {h : Heap} {v : Value} (hv : h.isArray v = false) (name : Value) :
    h.stepInto? v name = (h.property v name).toOption := by
  rw [isArray, Option.isSome_eq_false_iff, Option.isNone_iff_eq_none] at hv
  unfold stepInto?
  rw [hv]

theorem follow?_singleton (h : Heap) (v step : Value) :
    h.follow? v [step] = h.stepInto? v step := by
  show (h.stepInto? v step).bind some = h.stepInto? v step
  exact Option.bind_fun_some _

theorem follow?_append {h : Heap} {root v inner : Value} {path steps : List Value}
    (hpath : h.follow? root path = some v) (hsteps : h.follow? v steps = some inner) :
    h.follow? root (path ++ steps) = some inner := by
  rw [follow?] at hpath hsteps ⊢
  rw [List.foldlM_append, hpath]
  exact hsteps

end Heap

/-! ## Watching the paths -/

/-- What the paths of both validators are followed from. -/
structure Watch where
  /-- What the caller's validator was started with, unless a predicate has started it again with
  another value than the one that it stood at: then there is nothing to follow its path from. -/
  root : Option Value
  /-- What the caller's validator stands at while a predicate that it asks is at work. -/
  held : Value
  /-- What the validator of a predicate was started with. -/
  inner : Value

namespace Watch

def start (value : Value) : Watch := ⟨some value, value, value⟩

def rootIn (watch : Watch) : Lane → Option Value
  | .own => watch.root
  | .nested => some watch.inner

/-- The path of a validator, if it is watched, leads to a value. -/
def Leads (watch : Watch) (h : Heap) (lane : Lane) (t : Trace) (value : Value) : Prop :=
  ∀ root, watch.rootIn lane = some root → h.follow? root (t.pathIn lane) = some value

open Classical in
/-- Fails with `lost` unless the path leads to the value. -/
noncomputable def check (watch : Watch) (h : Heap) (lost : Failure) (lane : Lane) (value : Value) :
    Validation Unit := fun t =>
  if watch.Leads h lane t value then (.ok (), t) else (.error lost, t)

/-- A validator asks a predicate about a value. -/
def asking (watch : Watch) (lane : Lane) (value : Value) : Watch :=
  match lane with
  | .own => { watch with held := value }
  | .nested => watch

open Classical in
/-- A predicate starts a validation of a value. -/
noncomputable def starting (watch : Watch) (lane : Lane) (value : Value) : Watch :=
  match lane with
  | .own => { watch with root := if value = watch.held then watch.root else none }
  | .nested => { watch with inner := value }

end Watch

/-- Asks a predicate, with a check of the path ahead. -/
noncomputable def Setting.askChecked (s : Setting) (lost : Failure) (again : Watch → Matcher)
    (watch : Watch) (w : Validator) (predicate value : Value) : Validation Bool := do
  watch.check s.heap lost w.lane value
  let asked := watch.asking w.lane value
  s.ask (fun w' known node x => again (asked.starting w'.lane x) w' known node x) w predicate value

/-- Matches as far as so many levels of a schema, with predicates asked by `ask` and links left to
`again`. -/
def matchAsking (s : Setting) (ask : Validator → (predicate value : Value) → Validation Bool)
    (again : Matcher) : Nat → Matcher
  | 0 => fun _ _ _ _ => Validation.fail .endless
  | levels + 1 => fun w known node value =>
    match node.kind? with
    | some k =>
      matchKind s w known value (ask w node value)
        (fun part x => matchAsking s ask again levels w part part x) k
    | none =>
      match node with
      | .link address => again w (.link address) (s.heap.cell address) value
      | _ => matchKindless w known node value

/-- Matches as `matchWithin` does, with a check of the path ahead of every call of a predicate. -/
noncomputable def matchChecked (s : Setting) (lost : Failure) : Nat → Watch → Matcher
  | 0, _ => fun _ _ _ _ => Validation.fail .endless
  | depth + 1, watch => fun w known node value =>
    matchAsking s (s.askChecked lost (matchChecked s lost depth) watch)
      (matchChecked s lost depth watch) (sizeOf node + 1) w known node value

/-- Validates with checks of the paths: a check that does not come out is the failure `lost`. -/
noncomputable def Setting.validateChecked (s : Setting) (lost : Failure) (schema value : Value) :
    Validation (Option Mismatch) :=
  Validation.deepening
    (fun depth => matchChecked s lost depth (.start value) s.owner schema schema value)
    (s.depthFor schema value)

/-! ## Where matching goes -/

/-- Matching a value against a schema of a kind goes on, so many steps further down, to a part of
the schema and what that is matched against. -/
inductive Setting.GoesTo (s : Setting) (value : Value) :
    Kind → (steps : List Value) → (part inner : Value) → Prop
  | item {members : List Value} {pairs : List (Value × Value)} {i : Nat} {pair : Value × Value}
      (fits : s.pairs members value = some pairs) (here : pairs[i]? = some pair) :
      GoesTo s value (.array members) [.int i] pair.1 pair.2
  | member {members : List Value} {member : Value} (mem : member ∈ members) :
      GoesTo s value (.union members) [] member value
  | property {entries : List (Value × Value)} {e : Value × Value} {inner : Value}
      (single : s.heap.isArray value = false) (mem : e ∈ entries)
      (read : s.heap.property value e.1 = .ok inner) :
      GoesTo s value (.object entries) [e.1] e.2 inner

/-- The steps lead to what the part is matched against. -/
theorem Setting.GoesTo.follow?_eq {s : Setting} {value part inner : Value} {k : Kind}
    {steps : List Value} (h : s.GoesTo value k steps part inner) :
    s.heap.follow? value steps = some inner := by
  cases h with
  | item fits here =>
    obtain ⟨items, hitems, hpairs⟩ := Option.bind_eq_some_iff.mp fits
    rw [Heap.follow?_singleton, Heap.stepInto?_index hitems,
      (getElem?_of_pairing hpairs here).2]
  | member mem => rfl
  | property single mem read =>
    rw [Heap.follow?_singleton, Heap.stepInto?_name single, read]
    rfl

theorem Setting.GoesTo.mem_tasks {s : Setting} {value part inner : Value} {k : Kind}
    {steps : List Value} (h : s.GoesTo value k steps part inner) :
    (part, inner) ∈ s.tasks value k := by
  cases h with
  | item fits here =>
    rw [Setting.tasks, fits]
    exact List.mem_of_getElem? here
  | member mem => exact List.mem_map.mpr ⟨_, mem, rfl⟩
  | property single mem read => exact Setting.mem_tasks_of_read mem read

/-! ## Computations that agree at a place -/

namespace Trace

/-- Some steps further down. -/
def along (t : Trace) (lane : Lane) (steps : List Value) : Trace :=
  t.setPath lane (t.pathIn lane ++ steps)

theorem along_nil (t : Trace) (lane : Lane) : t.along lane [] = t := by
  cases lane <;> rw [along, List.append_nil] <;> rfl

theorem pathIn_along (t : Trace) (lane : Lane) (steps : List Value) :
    (t.along lane steps).pathIn lane = t.pathIn lane ++ steps := by
  cases lane <;> rfl

theorem SamePlace.push {t u : Trace} (h : u.SamePlace t) (lane : Lane) (step : Value) :
    (u.push lane step).SamePlace (t.push lane step) := by
  have hpath := h.pathIn lane
  rw [Trace.push, Trace.push, hpath]
  cases lane
  · exact ⟨rfl, h.inner⟩
  · exact ⟨h.path, rfl⟩

end Trace

section

variable {α β : Type} {t : Trace}

theorem bind_congr_at {x y : Validation α} {f g : α → Validation β} (hx : x t = y t)
    (hf : ∀ a u, y t = (.ok a, u) → f a u = g a u) : (x >>= f) t = (y >>= g) t := by
  rcases hrun : y t with ⟨failure | a, u⟩ <;> rw [hrun] at hx
  · rw [bind_of_error hx, bind_of_error hrun]
  · rw [bind_of_ok hx, bind_of_ok hrun]
    exact hf a u hrun

/-- What follows a computation that keeps its place may be compared at that place only. -/
theorem bind_congr_of_keeps {x y : Validation α} {f g : α → Validation β}
    (keeps : (y t).2.SamePlace t) (hx : x t = y t)
    (hf : ∀ a u, u.SamePlace t → f a u = g a u) : (x >>= f) t = (y >>= g) t := by
  refine bind_congr_at hx fun a u hrun => hf a u ?_
  rw [hrun] at keeps
  exact keeps

theorem descend_congr_at {x y : Validation α} {lane : Lane} {step : Value}
    (h : x (t.push lane step) = y (t.push lane step)) :
    Validation.descend lane step x t = Validation.descend lane step y t := by
  unfold Validation.descend
  rw [h]

theorem apart_congr_at {x y : Validation α}
    (h : x { t with inner := [] } = y { t with inner := [] }) :
    Validation.apart x t = Validation.apart y t := by
  unfold Validation.apart
  rw [h]

theorem findSomeM?_congr_at {f g : α → Validation (Option β)} {l : List α}
    (keeps : ∀ a u, (g a u).2.SamePlace u)
    (h : ∀ a ∈ l, ∀ u : Trace, u.SamePlace t → f a u = g a u) :
    l.findSomeM? f t = l.findSomeM? g t := by
  induction l generalizing t with
  | nil => rfl
  | cons a l ih =>
    rw [List.findSomeM?_cons, List.findSomeM?_cons]
    refine bind_congr_of_keeps (keeps a t) (h a (List.mem_cons_self ..) t (.refl t)) ?_
    intro found u hu
    cases found with
    | some b => rfl
    | none => exact ih fun b hb v hv => h b (List.mem_cons_of_mem a hb) v (hv.trans hu)

end

section

variable {s : Setting} {w : Validator} {value : Value} {sub sub' : PartMatcher} {t : Trace}
  (keeps : ∀ part x u, (sub' part x u).2.SamePlace u)
include keeps

theorem matchPairing_congr_at {pairs : List (Value × Value)}
    (hsub : ∀ (i : Nat) pair, pairs[i]? = some pair → ∀ u : Trace,
      u.SamePlace (t.push w.lane (.int i)) → sub pair.1 pair.2 u = sub' pair.1 pair.2 u) :
    matchPairing w sub pairs t = matchPairing w sub' pairs t := by
  refine findSomeM?_congr_at ?_ ?_
  · rintro ⟨pair, i⟩ u
    exact samePlace_descend (keeps pair.1 pair.2) w.lane (.int i) u
  · rintro ⟨pair, i⟩ ha u hu
    have here : pairs[i]? = some pair := List.mk_mem_zipIdx_iff_getElem?.mp ha
    exact descend_congr_at (hsub i pair here _ (hu.push ..))

theorem tryMembers_congr_at {members : List Value}
    (hsub : ∀ member ∈ members, ∀ u : Trace, u.SamePlace t →
      sub member value u = sub' member value u) :
    members.findSomeM? (tryMember sub value) t = members.findSomeM? (tryMember sub' value) t := by
  refine findSomeM?_congr_at (fun member u => ?_) fun member hm u hu => ?_
  · exact (Correspondence.keepingPlace.tryMember (keeps_outcome keeps member value) u).1
  · exact bind_congr_at (hsub member hm u hu) fun _ _ _ => rfl

theorem visitEntries_congr_at {entries : List (Value × Value)}
    (hsub : ∀ e ∈ entries, ∀ read, s.heap.property value e.1 = .ok read → ∀ u : Trace,
      u.SamePlace (t.push w.lane e.1) → sub e.2 read u = sub' e.2 read u) :
    visitEntries s w sub value entries t = visitEntries s w sub' value entries t := by
  refine findSomeM?_congr_at (fun e u => ?_) fun e he u hu => ?_
  · cases s.heap.property value e.1 with
    | error failure => exact .refl u
    | ok read => exact samePlace_descend (keeps e.2 read) w.lane e.1 u
  · cases hr : s.heap.property value e.1 with
    | error failure => rfl
    | ok read => exact descend_congr_at (hsub e he read hr _ (hu.push ..))

/-- Matching by the kind of a schema does the same at a place if the question to a predicate does
there, and matching the parts where it goes to them. -/
theorem matchKind_congr_at {known : Value} {asked asked' : Validation Bool} {k : Kind}
    (hasked : asked t = asked' t)
    (hsub : ∀ steps part x, s.GoesTo value k steps part x →
      ∀ u : Trace, u.SamePlace (t.along w.lane steps) → sub part x u = sub' part x u) :
    matchKind s w known value asked sub k t = matchKind s w known value asked' sub' k t := by
  cases k with
  | atom name => rfl
  | pattern p => rfl
  | predicate => exact bind_congr_at hasked fun _ _ _ => rfl
  | array members =>
    rw [matchKind, matchKind]
    cases hp : s.pairs members value with
    | none => rfl
    | some pairs => exact matchPairing_congr_at keeps fun i pair here => hsub _ _ _ (.item hp here)
  | union members =>
    refine bind_congr_at (tryMembers_congr_at keeps fun member hm => ?_) fun _ _ _ => rfl
    have hmember := hsub [] member value (.member hm)
    rw [Trace.along_nil] at hmember
    exact hmember
  | object entries =>
    rw [matchKind, matchKind, matchObject_declare, matchObject_declare]
    split
    · rfl
    split
    · rfl
    next hplain _ =>
    exact bind_congr_at (visitEntries_congr_at keeps fun e he read hr =>
      hsub _ _ _ (.property (plain_of_not_refused hplain).2 he hr)) fun _ _ _ => rfl

end

/-! ## Asking -/

section

variable {s : Setting} {ask : Validator → (predicate value : Value) → Validation Bool}
  {again : Matcher} {levels : Nat} {w : Validator} {known node value : Value}

theorem matchAsking_of_kind {k : Kind} (hk : node.kind? = some k) :
    matchAsking s ask again (levels + 1) w known node value
      = matchKind s w known value (ask w node value)
          (fun part x => matchAsking s ask again levels w part part x) k := by
  simp only [matchAsking, hk]

theorem matchAsking_of_no_kind (hk : node.kind? = none) (hne : ∀ a, node ≠ .link a) :
    matchAsking s ask again (levels + 1) w known node value = matchKindless w known node value := by
  simp only [matchAsking, hk]

/-- Matching keeps its place if asking and following links do. -/
theorem matchAsking_samePlace
    (hask : ∀ predicate value t, (ask w predicate value t).2.SamePlace t)
    (hagain : ∀ known node value t, (again w known node value t).2.SamePlace t) (t : Trace) :
    (matchAsking s ask again levels w known node value t).2.SamePlace t := by
  induction levels generalizing known node value t with
  | zero => exact .refl t
  | succ levels ih =>
    cases hk : node.kind? with
    | some k =>
      rw [matchAsking_of_kind hk]
      have hasked : Correspondence.keepingPlace.Related Eq (ask w node value) (ask w node value) :=
        fun t => ⟨hask node value t, fun passed _ => ⟨passed, rfl⟩⟩
      have hpart (part x : Value) (u : Trace) :
          (matchAsking s ask again levels w part part x u).2.SamePlace u := ih u
      exact (Correspondence.keepingPlace.matchKind hasked
        (fun part _ => keeps_outcome hpart part) t).1
    | none =>
      rcases node.link_or with ⟨a, rfl⟩ | hne
      · exact hagain (.link a) (s.heap.cell a) value t
      · rw [matchAsking_of_no_kind hk hne]
        exact (Correspondence.keepingPlace.matchKindless w known node value t).1

end

section

variable {s : Setting} {w : Validator}

/-- Where predicates are asked and links are followed in two ways that do the same, the same is
done: `Holds` says where that is, and matching goes on to no other places. -/
theorem matchAsking_congr_at (Holds : (value : Value) → Trace → Prop)
    {ask ask' : Validator → (predicate value : Value) → Validation Bool} {again again' : Matcher}
    (goes : ∀ {value k steps part inner t u}, Holds value t → s.GoesTo value k steps part inner →
      u.SamePlace (t.along w.lane steps) → Holds inner u)
    (keepsAsk : ∀ predicate value t, (ask' w predicate value t).2.SamePlace t)
    (keepsAgain : ∀ known node value t, (again' w known node value t).2.SamePlace t)
    (hask : ∀ {predicate value t}, Holds value t →
      ask w predicate value t = ask' w predicate value t)
    (hagain : ∀ {known node value t}, Holds value t →
      again w known node value t = again' w known node value t)
    {levels : Nat} {known node value : Value} {t : Trace} (h : Holds value t) :
    matchAsking s ask again levels w known node value t
      = matchAsking s ask' again' levels w known node value t := by
  induction levels generalizing known node value t with
  | zero => rfl
  | succ levels ih =>
    cases hk : node.kind? with
    | some k =>
      rw [matchAsking_of_kind hk, matchAsking_of_kind hk]
      exact matchKind_congr_at (fun part x => matchAsking_samePlace keepsAsk keepsAgain) (hask h)
        fun steps part x hgo u hu => ih (goes h hgo hu)
    | none =>
      rcases node.link_or with ⟨a, rfl⟩ | hne
      · exact hagain h
      · rw [matchAsking_of_no_kind hk hne, matchAsking_of_no_kind hk hne]

/-- Asking as matching does is matching, as far as so many levels go. -/
theorem matchAsking_ask {depth levels : Nat} {known node value : Value}
    (enough : sizeOf node < levels) (t : Trace) :
    matchAsking s (s.ask (matchWithin s depth)) (matchWithin s depth) levels w known node value t
      = matchWithin s (depth + 1) w known node value t := by
  rw [matchWithin]
  induction levels generalizing known node value t with
  | zero => exact absurd enough (Nat.not_lt_zero _)
  | succ levels ih =>
    cases hk : node.kind? with
    | some k =>
      rw [matchAsking_of_kind hk, matchNode_of_kind s (matchWithin s depth) w hk]
      refine matchKind_congr_at (fun part x => matchWithin_samePlace s (depth + 1) w part part x)
        rfl fun steps part x hgo u hu => ?_
      have hlt : sizeOf part < sizeOf node :=
        sizeOf_part_lt hk (Setting.mem_parts_of_mem_tasks hgo.mem_tasks)
      exact ih (by omega) u
    | none =>
      rcases node.link_or with ⟨a, rfl⟩ | hne
      · rfl
      · rw [matchAsking_of_no_kind hk hne, matchNode_of_no_kind s (matchWithin s depth) w hk hne]

end

/-! ## Every path leads there -/

/-- A validator is at work on a value, and its path leads there; meanwhile that of the caller's
validator leads to what it stands at. -/
structure Watch.Located (watch : Watch) (h : Heap) (lane : Lane) (value : Value) (t : Trace) :
    Prop where
  here : watch.Leads h lane t value
  held : lane = .nested → watch.Leads h .own t watch.held

namespace Watch

variable {watch : Watch} {h : Heap} {lane : Lane} {value : Value} {t u : Trace}

theorem Leads.of_samePlace (hl : watch.Leads h lane t value) (hu : u.SamePlace t) :
    watch.Leads h lane u value := by
  intro root hroot
  rw [hu.pathIn]
  exact hl root hroot

/-- The steps that lead on from a value are steps further down. -/
theorem Located.along (hl : watch.Located h lane value t) {steps : List Value} {inner : Value}
    (hsteps : h.follow? value steps = some inner) (hu : u.SamePlace (t.along lane steps)) :
    watch.Located h lane inner u where
  here root hroot := by
    rw [hu.pathIn, Trace.pathIn_along]
    exact Heap.follow?_append (hl.here root hroot) hsteps
  held hlane := by
    subst hlane
    intro root hroot
    show h.follow? root u.path = some watch.held
    rw [hu.path]
    exact hl.held rfl root hroot

/-- While a predicate is at work, the caller's validator stands where its path leads. -/
theorem Located.asking (hl : watch.Located h lane value t) :
    (watch.asking lane value).Leads h .own t (watch.asking lane value).held := by
  cases lane with
  | own => exact hl.here
  | nested => exact hl.held rfl

open Classical in
theorem root_of_starting {root : Value} (hroot : (watch.starting .own value).root = some root) :
    value = watch.held ∧ watch.root = some root := by
  have hif : (if value = watch.held then watch.root else none) = some root := hroot
  split at hif
  · next hvalue => exact ⟨hvalue, hif⟩
  · cases hif

/-- A validation that a predicate starts by a validator of its own starts where the path leads. -/
theorem Leads.nested (hl : watch.Leads h .own t watch.held) (value : Value) :
    (watch.starting .nested value).Located h .nested value { t with inner := [] } where
  here root hroot := by
    cases hroot
    rfl
  held _ := hl

/-- And so does one that it starts by the caller's validator. -/
theorem Leads.own (hl : watch.Leads h .own t watch.held) (value : Value) :
    (watch.starting .own value).Located h .own value t where
  here root hroot := by
    obtain ⟨hvalue, hwatched⟩ := root_of_starting hroot
    rw [hvalue]
    exact hl root hwatched
  held := nofun

theorem check_eq (hl : watch.Leads h lane t value) (lost : Failure) :
    watch.check h lost lane value t = (.ok (), t) := if_pos hl

end Watch

/-! ## Checked validations -/

section

variable {s : Setting} {lost : Failure} {again : Watch → Matcher} {unchecked : Matcher}
  (own : s.owner.lane = .own)
  (keeps : ∀ w known node value t, (unchecked w known node value t).2.SamePlace t)
  (hagain : ∀ (watch : Watch) (w : Validator) (known node value : Value) (t : Trace),
    watch.Located s.heap w.lane value t →
      again watch w known node value t = unchecked w known node value t)
include own keeps hagain

/-- A script runs on in step, from wherever the caller's validator stands where its path leads. -/
theorem script_checked (script : Script) {watch : Watch} {t : Trace}
    (hl : watch.Leads s.heap .own t watch.held) :
    script.run s (fun w known node x => again (watch.starting w.lane x) w known node x) t
      = script.run s unchecked t := by
  induction script generalizing t with
  | answer v => rfl
  | fail failure => rfl
  | test schema value options next ih =>
    rw [Script.run, Script.run]
    cases hw : Validator.ofOptions s.heap .nested options with
    | error failure => rfl
    | ok w =>
      have hlane : w.lane = .nested := lane_ofOptions hw
      have hstart := hl.nested value
      rw [← hlane] at hstart
      have hplace := keeps w schema schema value { t with inner := [] }
      rw [lift_ok, pure_bind, pure_bind]
      refine bind_congr_of_keeps ⟨hplace.path, rfl⟩ ?_ fun found u hu => ?_
      · exact apart_congr_at (hagain _ w schema schema value _ hstart)
      · exact ih found.isNone (hl.of_samePlace hu)
  | reenter schema value next ih =>
    rw [Script.run, Script.run]
    have hstart := hl.own value
    rw [← own] at hstart
    refine bind_congr_of_keeps (keeps s.owner schema schema value t) ?_ fun found u hu => ?_
    · exact hagain _ s.owner schema schema value t hstart
    · exact ih found.isNone (hl.of_samePlace hu)

/-- A predicate that is asked where the path leads to the value answers as it does unchecked. -/
theorem askChecked_eq {watch : Watch} {w : Validator} {predicate value : Value} {t : Trace}
    (hl : watch.Located s.heap w.lane value t) :
    s.askChecked lost again watch w predicate value t = s.ask unchecked w predicate value t := by
  rw [Setting.askChecked, bind_of_ok (Watch.check_eq hl.here lost)]
  cases predicate with
  | object handle content =>
    cases content with
    | function name className signature code fields =>
      unfold Setting.ask callFunction
      dsimp only
      generalize Given.mk value (if signature.accepts 2 = true then some w.options else none)
        = given
      cases signature.misfit? given.count with
      | some misfit => rfl
      | none =>
        refine bind_congr_of_keeps ⟨rfl, rfl⟩ rfl fun _ u hu => ?_
        exact script_checked own keeps hagain _ (hl.asking.of_samePlace hu)
    | _ => rfl
  | _ => rfl

end

/-- Checked matching does what matching does, wherever the path leads to the value. -/
theorem matchChecked_eq {s : Setting} (own : s.owner.lane = .own) (lost : Failure) (depth : Nat)
    (watch : Watch) (w : Validator) (known node value : Value) (t : Trace)
    (hl : watch.Located s.heap w.lane value t) :
    matchChecked s lost depth watch w known node value t
      = matchWithin s depth w known node value t := by
  induction depth generalizing watch w known node value t with
  | zero => rfl
  | succ depth ih =>
    rw [matchChecked, ← matchAsking_ask (Nat.lt_succ_self _)]
    exact matchAsking_congr_at (watch.Located s.heap w.lane)
      (fun hl hgo hu => hl.along hgo.follow?_eq hu) (ask_samePlace s depth w)
      (matchWithin_samePlace s depth w)
      (askChecked_eq own (matchWithin_samePlace s depth) ih) (ih _ _ _ _ _ _) hl

/-- At an empty path a validation is at what it was started with. -/
theorem Watch.located_start {h : Heap} {value : Value} {t : Trace} (ht : t.path = []) :
    (Watch.start value).Located h .own value t := by
  refine ⟨fun root hroot => ?_, nofun⟩
  cases hroot
  show h.follow? value t.path = some value
  rw [ht]
  rfl

/-- A validation does the same if its paths are checked whenever a predicate is called. So no check
ever fails, whatever `lost` is: at every call the path leads to the value that is handed over. -/
theorem validateChecked_eq {s : Setting} (own : s.owner.lane = .own) (lost : Failure)
    (schema value : Value) {t : Trace} (ht : t.path = []) :
    s.validateChecked lost schema value t = s.validate schema value t := by
  have hstart : (Watch.start value).Located s.heap s.owner.lane value t :=
    own ▸ Watch.located_start ht
  unfold Setting.validateChecked Setting.validate Validation.deepening
  simp only [matchChecked_eq own lost _ _ _ _ _ _ _ hstart]

/-- The world of one function. It tests a row by a validator of its own and then once more by the
caller's, and answers what comes of that. -/
def rowSetting : Setting :=
  ⟨⟨.empty, fun _ given =>
      .test (.list [.check .integer]) given.value ⟨.bool true⟩ fun _ =>
        .reenter (.list [.check .integer]) given.value fun passed => .answer (.bool passed), 1⟩,
    ⟨⟨.bool true⟩, true, .own⟩⟩

def isRow : Value := .object none (.function (some "is_row") "function" ⟨["value"], 0, false, []⟩ 0 [])

def rowsSchema : Value := .mapping [(.str "rows", .list [.union [isRow, .str "string"]])]

def rows : Value :=
  .mapping [(.str "rows", .list [.list [.int 1, .int 2], .list [.null], .str "total"])]

/-- The function is called for two rows, at their paths, and what it starts is checked too. -/
theorem validateChecked_rows :
    rowSetting.owner.lane = .own ∧ Trace.start.path = [] ∧
      (∀ lost, rowSetting.validateChecked lost rowsSchema rows .start
        = rowSetting.validate rowsSchema rows .start) ∧
      (rowSetting.validate rowsSchema rows .start).2.calls
        = [⟨some "is_row", .list [.int 1, .int 2], 1, [.str "rows", .int 0]⟩,
          ⟨some "is_row", .list [.null], 1, [.str "rows", .int 1]⟩] := by
  refine ⟨rfl, rfl, fun lost => validateChecked_eq rfl lost rowsSchema rows rfl, ?_⟩
  rw [Setting.validate_eq (d := 2)]
  · rfl
  · nofun

/-- A check is made: a predicate asked where the path leads elsewhere is not called. -/
theorem validateChecked_lost {s : Setting} (own : s.owner.lane = .own) {lost : Failure}
    (hlost : lost ≠ .endless) {schema value : Value} (hk : schema.kind? = some .predicate)
    {t : Trace} (away : s.heap.follow? value t.path ≠ some value) :
    s.validateChecked lost schema value t = (.error lost, t) := by
  have hleads : ¬ (Watch.start value).Leads s.heap s.owner.lane t value := by
    rw [own]
    exact fun hl => away (hl value rfl)
  have hrun (depth : Nat) :
      matchChecked s lost (depth + 1) (.start value) s.owner schema schema value t
        = (.error lost, t) := by
    have hcheck : (Watch.start value).check s.heap lost s.owner.lane value t = (.error lost, t) :=
      if_neg hleads
    show matchAsking s _ _ (sizeOf schema + 1) s.owner schema schema value t = _
    rw [matchAsking_of_kind hk]
    exact bind_of_error (bind_of_error hcheck _) _
  have hdepth : s.depthFor schema value ≠ 0 :=
    Nat.mul_ne_zero (Nat.succ_ne_zero _) (Nat.succ_ne_zero _)
  obtain ⟨depth, hdepth⟩ := Nat.exists_eq_succ_of_ne_zero hdepth
  unfold Setting.validateChecked Validation.deepening
  rw [hdepth, Search.firstFrom_of_eq_some (a := (.error lost, t)), Option.getD_some]
  dsimp only
  rw [hrun]
  exact ended?_of_ne fun heq => hlost (Except.error.inj heq)

end Conform
