import Conform.Proofs.Matching.BodyRuns
import Conform.Proofs.Matching.Verdict
/-!
# Failures of predicates come to the surface

A validation does what its account says: it records the same calls in the same order, and the same
comes of it. Accounts go to a depth of schemas and runs to a depth of links, so each is compared
with the other at any depth that is large enough. Main statement: `validate_surfaces`.
-/

set_option autoImplicit false

namespace Conform

open Validation

/-! ## Computations and their accounts -/

/-- A run records the calls that an account lists, and comes to the same, `p` being how its result
is read. -/
structure Tells {β : Type} (p : β → Bool) (out : Except Failure β × Trace) (calls : List Call)
    (a : Account) : Prop where
  outcome : out.1.map p = a.outcome
  calls : out.2.calls = calls ++ a.runs.filterMap BodyRun.call

/-- Which of the two may be cut short at a depth. -/
inductive Side where
  | run
  | account

def Side.Cut {β : Type} (side : Side) (out : Except Failure β) (a : Account) : Prop :=
  match side with
  | .run => out = .error .endless
  | .account => a.outcome = .error .endless

/-- A computation does what an account says of the path where it starts, unless one of them is cut
short. -/
def Recounts {β : Type} (side : Side) (p : β → Bool) (x : Validation β)
    (f : List Value → Account) : Prop :=
  ∀ t, side.Cut (x t).1 (f t.path) ∨ Tells p (x t) t.calls (f t.path)

section

variable {side : Side} {β γ : Type} {p : β → Bool} {q : γ → Bool}

theorem Recounts.pure (b : β) : Recounts side p (pure b) fun _ => .decided (.ok (p b)) :=
  fun t => .inr ⟨rfl, (List.append_nil t.calls).symm⟩

theorem Recounts.fail (failure : Failure) :
    Recounts side p (fail failure) fun _ => .decided (.error failure) :=
  fun t => .inr ⟨rfl, (List.append_nil t.calls).symm⟩

theorem Recounts.descend {x : Validation β} {f : List Value → Account} (step : Value)
    (h : Recounts side p x f) :
    Recounts side p (descend .own step x) fun path => f (path ++ [step]) := by
  intro t
  rcases h (t.push .own step) with hcut | ⟨houtcome, hcalls⟩
  · exact .inl hcut
  · exact .inr ⟨houtcome, hcalls⟩

theorem Side.Cut.bind {x : Validation β} {t : Trace} {a a' : Account}
    (h : side.Cut (x t).1 a) (ha : a.outcome = .error .endless → a'.outcome = .error .endless)
    (g : β → Validation γ) : side.Cut ((x >>= g) t).1 a' := by
  cases side with
  | account => exact ha h
  | run =>
    rcases hrun : x t with ⟨failure | b, u⟩ <;> rw [hrun] at h
    · cases h
      rw [bind_of_error hrun]
      rfl
    · cases h

/-- What follows may read the result in another way, but does nothing. -/
theorem Recounts.finish {x : Validation β} {f : List Value → Account} {g : β → Validation γ}
    (h : Recounts side p x f) (hg : ∀ b u, ∃ c, g b u = (.ok c, u) ∧ q c = p b) :
    Recounts side q (x >>= g) f := by
  intro t
  rcases h t with hcut | ⟨houtcome, hcalls⟩
  · exact .inl (hcut.bind id g)
  · refine .inr ?_
    rcases hrun : x t with ⟨failure | b, u⟩ <;> rw [hrun] at houtcome hcalls
    · rw [bind_of_error hrun]
      exact ⟨houtcome, hcalls⟩
    · obtain ⟨c, hc, hqc⟩ := hg b u
      rw [bind_of_ok hrun, hc]
      exact ⟨houtcome ▸ congrArg Except.ok hqc, hcalls⟩

/-- What follows is done only if the first comes out as `go`. -/
theorem Recounts.andThen {x : Validation β} {f f' : List Value → Account} {g : β → Validation γ}
    {go : Bool} (keeps : ∀ t, (x t).2.SamePlace t) (h : Recounts side p x f)
    (hgo : ∀ b, p b = go → Recounts side q (g b) f')
    (hstop : ∀ b, p b ≠ go → ∀ u, ∃ c, g b u = (.ok c, u) ∧ q c = p b) :
    Recounts side q (x >>= g) fun path => (f path).andThen go (f' path) := by
  intro t
  dsimp only
  rcases h t with hcut | ⟨houtcome, hcalls⟩
  · refine .inl (hcut.bind (fun hendless => ?_) g)
    rw [Account.andThen_of_ne (by rw [hendless]; nofun)]
    exact hendless
  · have hplace := keeps t
    rcases hrun : x t with ⟨failure | b, u⟩ <;> rw [hrun] at houtcome hcalls hplace
    · rw [bind_of_error hrun, Account.andThen_of_ne (by rw [← houtcome]; nofun)]
      exact .inr ⟨houtcome, hcalls⟩
    · rw [bind_of_ok hrun]
      by_cases hb : p b = go
      · have hpath : u.path = t.path := hplace.path
        have hnext := hgo b hb u
        rw [Account.andThen_of_go (houtcome ▸ congrArg Except.ok hb), ← hpath]
        rcases hnext with hcut | ⟨houtcome', hcalls'⟩
        · exact .inl (by cases side <;> exact hcut)
        · refine .inr ⟨houtcome', ?_⟩
          rw [hcalls', hcalls, hpath, List.filterMap_append, List.append_assoc]
      · obtain ⟨c, hc, hqc⟩ := hstop b hb u
        rw [Account.andThen_of_ne (by rw [← houtcome]; exact fun heq => hb (Except.ok.inj heq)), hc]
        exact .inr ⟨houtcome ▸ congrArg Except.ok hqc, hcalls⟩

/-- A loop goes on while it finds nothing. -/
theorem Recounts.findSomeM? {α : Type} {p : Option β → Bool} {go : Bool} (hnone : p none = go)
    (hsome : ∀ b, p (some b) ≠ go) {g : α → Validation (Option β)}
    {f : α → List Value → Account} (keeps : ∀ a t, (g a t).2.SamePlace t) (l : List α)
    (h : ∀ a ∈ l, Recounts side p (g a) (f a)) :
    Recounts side p (l.findSomeM? g) fun path => .inTurn go (l.map fun a => f a path) := by
  induction l with
  | nil =>
    have hpure : Recounts side p (Pure.pure none : Validation (Option β)) _ := .pure none
    rw [hnone] at hpure
    exact hpure
  | cons a l ih =>
    obtain ⟨ha, hrest⟩ := List.forall_mem_cons.mp h
    rw [List.findSomeM?_cons]
    refine ha.andThen (keeps a) (fun found hfound => ?_) fun found hfound u => ?_
    · cases found with
      | none => exact ih hrest
      | some b => exact absurd hfound (hsome b)
    · cases found with
      | none => exact absurd hnone hfound
      | some b => exact ⟨some b, rfl, rfl⟩

end

/-! ## Predicates -/

/-- Predicates that start no validation. -/
def Value.IsPlain (behaviours : Behaviours) (predicate : Value) : Prop :=
  ∀ handle name className signature code own,
    predicate = .object handle (.function name className signature code own) →
    ∀ given, (behaviours code given).isPlain = true

section

variable {side : Side} {s : Setting} {w : Validator}

/-- Asking a predicate that is not a function of the world. -/
theorem recounts_lift (predicate value : Value) (answer : Except Failure Bool) :
    Recounts side id (lift answer) fun _ => .ofBodyRun (.ok ⟨predicate, value, none, answer⟩) := by
  intro t
  cases answer with
  | error failure => exact .inr ⟨rfl, (List.append_nil t.calls).symm⟩
  | ok passed => exact .inr ⟨rfl, (List.append_nil t.calls).symm⟩

theorem run_of_isPlain {script : Script} (h : script.isPlain = true) (again : Matcher) :
    script.run s again = lift (script.outcome s.heap) := by
  cases script with
  | answer v => rfl
  | fail failure => rfl
  | test => cases h
  | reenter => cases h

theorem recounts_callFunction {predicate : Value} {handle : Option Nat} {name : Option String}
    {className : String} {signature : Signature} {code : Nat} {own : List (String × Value)}
    (hp : predicate = .object handle (.function name className signature code own))
    (plain : predicate.IsPlain s.behaviours) (again : Matcher) (value : Value) :
    Recounts side id (callFunction s again w name className signature code value) fun path =>
      .ofBodyRun (s.bodyRun w path predicate value) := by
  have hplain := plain handle name className signature code own hp
  subst hp
  unfold callFunction Setting.bodyRun
  dsimp only
  generalize Given.mk value (if signature.accepts 2 = true then some w.options else none) = given
  cases signature.misfit? given.count with
  | some misfit => exact .fail _
  | none =>
    intro t
    dsimp only
    rw [run_of_isPlain (hplain given)]
    refine .inr ?_
    cases (s.behaviours code given).outcome s.heap with
    | error failure => exact ⟨rfl, rfl⟩
    | ok passed => exact ⟨rfl, rfl⟩

theorem recounts_ask {predicate : Value} (hk : predicate.kind? = some .predicate)
    (plain : predicate.IsPlain s.behaviours) (again : Matcher) (value : Value) :
    Recounts side id (s.ask again w predicate value) fun path =>
      .ofBodyRun (s.bodyRun w path predicate value) := by
  cases predicate with
  | check c => exact recounts_lift _ value _
  | object handle content =>
    cases content with
    | host f => exact recounts_lift _ value _
    | function name className signature code own => exact recounts_callFunction rfl plain again value
    | _ => cases hk
  | _ => cases hk

end

/-! ## Kinds of schemas -/

section

variable {side : Side} {s : Setting} {w : Validator} {known value : Value}

theorem verdict_apply (w : Validator) (known value : Value) (passed : Bool) (t : Trace) :
    ∃ found, w.verdict known value passed t = (.ok found, t) ∧ found.isNone = passed := by
  cases passed with
  | true => exact ⟨none, rfl, rfl⟩
  | false => exact ⟨some _, rfl, rfl⟩

theorem recounts_verdict (passed : Bool) :
    Recounts side Option.isNone (w.verdict known value passed) fun _ => .decided (.ok passed) := by
  intro t
  obtain ⟨found, hfound, hpassed⟩ := verdict_apply w known value passed t
  rw [hfound]
  exact .inr ⟨congrArg Except.ok hpassed, (List.append_nil t.calls).symm⟩

theorem recounts_refuse :
    Recounts side Option.isNone (some <$> w.refuse known value) fun _ => .decided (.ok false) :=
  recounts_verdict false

theorem samePlace_descend {β : Type} {x : Validation β} (keeps : ∀ t, (x t).2.SamePlace t)
    (lane : Lane) (step : Value) (t : Trace) : (descend lane step x t).2.SamePlace t :=
  Trace.samePlace_pop (keeps (t.push lane step))

variable {sub : PartMatcher} {part : List Value → Value → Value → Account}

theorem recounts_matchPairing (lane : w.lane = .own)
    (keeps : ∀ p x t, (sub p x t).2.SamePlace t) (pairs : List (Value × Value))
    (h : ∀ pair ∈ pairs,
      Recounts side Option.isNone (sub pair.1 pair.2) fun path => part path pair.1 pair.2) :
    Recounts side Option.isNone (matchPairing w sub pairs) fun path =>
      Setting.accountOfPairs part path (some pairs) := by
  unfold matchPairing
  rw [lane]
  refine Recounts.findSomeM? (p := Option.isNone)
    (f := fun a path => part (path ++ [.int a.2]) a.1.1 a.1.2)
    rfl (fun _ => Bool.false_ne_true) ?_ pairs.zipIdx ?_
  · rintro ⟨pair, i⟩ t
    exact samePlace_descend (keeps pair.1 pair.2) .own (.int i) t
  · rintro ⟨pair, i⟩ hmem
    exact (h pair (List.fst_mem_of_mem_zipIdx hmem)).descend (.int i)

theorem recounts_union (keeps : ∀ p x t, (sub p x t).2.SamePlace t) (members : List Value)
    (h : ∀ member ∈ members,
      Recounts side Option.isNone (sub member value) fun path => part path member value) :
    Recounts side Option.isNone
      (members.findSomeM? (tryMember sub value) >>= fun found =>
        w.verdict known value found.isSome)
      fun path => .inTurn false (members.map fun member => part path member value) := by
  have hmember (member : Value) (hm : member ∈ members) :
      Recounts side Option.isSome (tryMember sub value member)
        fun path => part path member value := by
    refine (h member hm).finish fun found u => ?_
    cases found with
    | none => exact ⟨some (), rfl, rfl⟩
    | some mismatch => exact ⟨none, rfl, rfl⟩
  have hkeeps (member : Value) (t : Trace) : (tryMember sub value member t).2.SamePlace t :=
    (Correspondence.keepingPlace.tryMember (keeps_outcome keeps member value) t).1
  have hloop := Recounts.findSomeM? (p := Option.isSome) rfl
    (fun _ => Bool.noConfusion) hkeeps members hmember
  exact hloop.finish fun found u => verdict_apply w known value found.isSome u

theorem recounts_visitEntries (lane : w.lane = .own)
    (keeps : ∀ p x t, (sub p x t).2.SamePlace t) (entries : List (Value × Value))
    (h : ∀ e ∈ entries, ∀ read, s.heap.property value e.1 = .ok read →
      Recounts side Option.isNone (sub e.2 read) fun path => part path e.2 read) :
    Recounts side Option.isNone (visitEntries s w sub value entries) fun path =>
      s.accountOfEntries part path value entries := by
  unfold visitEntries Setting.accountOfEntries
  rw [lane]
  refine Recounts.findSomeM? (p := Option.isNone) (f := fun e path =>
    s.readThen value e.1 fun read => part (path ++ [e.1]) e.2 read)
    rfl (fun _ => Bool.false_ne_true) ?_ entries ?_
  · intro e t
    cases hread : s.heap.property value e.1 with
    | error failure => exact .refl t
    | ok read => exact samePlace_descend (keeps e.2 read) .own e.1 t
  · intro e he
    unfold Setting.readThen
    cases hread : s.heap.property value e.1 with
    | error failure => exact .fail failure
    | ok read => exact (h e he read hread).descend e.1

theorem recounts_object (lane : w.lane = .own) (keeps : ∀ p x t, (sub p x t).2.SamePlace t)
    (schema : Value) (entries : List (Value × Value))
    (h : ∀ e ∈ entries, ∀ read, s.heap.property value e.1 = .ok read →
      Recounts side Option.isNone (sub e.2 read) fun path => part path e.2 read) :
    Recounts side Option.isNone (matchObject s w known value (declare w sub entries)) fun path =>
      s.accountOfKind w part path schema value (.object entries) := by
  rw [matchObject_declare]
  dsimp only [Setting.accountOfKind]
  split
  · exact recounts_refuse
  split
  · exact recounts_refuse
  have hkeeps (t : Trace) : (visitEntries s w sub value entries t).2.SamePlace t :=
    (Correspondence.keepingPlace.visitEntries
      (List.forall₂_same.mpr fun e _ => ⟨rfl, keeps_outcome keeps e.2⟩) t).1
  refine (recounts_visitEntries lane keeps entries h).andThen hkeeps ?_ ?_
  · intro found hfound
    cases found with
    | some mismatch => cases hfound
    | none =>
      rw [Setting.ownsMore]
      dsimp only
      split
      · next hmore =>
        rw [hmore]
        exact recounts_refuse
      · next hmore =>
        rw [Bool.not_eq_true] at hmore
        rw [hmore]
        exact .pure none
  · intro found hfound u
    cases found with
    | none => exact absurd rfl hfound
    | some mismatch => exact ⟨some mismatch, rfl, rfl⟩

/-- Matching by the kind of a schema does what the account of the kind says, if matching the parts
does what their accounts say. -/
theorem recounts_matchKind (lane : w.lane = .own) (keeps : ∀ p x t, (sub p x t).2.SamePlace t)
    {asked : Validation Bool} {schema : Value} {k : Kind}
    (hasked : k = .predicate →
      Recounts side id asked fun path => .ofBodyRun (s.bodyRun w path schema value))
    (h : ∀ task ∈ s.tasks value k,
      Recounts side Option.isNone (sub task.1 task.2) fun path => part path task.1 task.2) :
    Recounts side Option.isNone (matchKind s w known value asked sub k) fun path =>
      s.accountOfKind w part path schema value k := by
  cases k with
  | atom name => exact recounts_verdict _
  | predicate => exact (hasked rfl).finish fun passed u => verdict_apply w known value passed u
  | pattern p => exact recounts_verdict _
  | array members =>
    dsimp only [matchKind, Setting.accountOfKind]
    cases hp : s.pairs members value with
    | none => exact recounts_refuse
    | some pairs =>
      refine recounts_matchPairing lane keeps pairs fun pair hmem => h pair ?_
      rw [Setting.tasks, hp]
      exact hmem
  | union members =>
    refine recounts_union keeps members fun member hm => h (member, value) ?_
    exact List.mem_map.mpr ⟨member, hm, rfl⟩
  | object entries =>
    exact recounts_object lane keeps schema entries fun e he read hr =>
      h (e.2, read) (Setting.mem_tasks_of_read he hr)

end

/-! ## Schemas -/

/-- All predicates within a schema are plain. -/
def PlainWithin (world : World) (schema : Value) : Prop :=
  ∀ node, Within world.heap node schema → node.IsPlain world.behaviours

theorem PlainWithin.part {world : World} {schema part : Value} {k : Kind}
    (h : PlainWithin world schema) (hk : world.heap.kind? schema = some k) (hp : part ∈ k.parts) :
    PlainWithin world part :=
  fun node within => h node (.inside hk hp within)

theorem PlainWithin.cell {world : World} {a : Nat} (h : PlainWithin world (.link a)) :
    PlainWithin world (world.heap.cell a) := by
  intro node within
  rcases within_cell within with rfl | within
  · intro handle name className signature code own hfunction
    refine absurd ?_ (kind?_cell_ne_predicate world.heap a)
    rw [hfunction]
    rfl
  · exact h node within

section

variable {s : Setting} {w : Validator}

theorem account_link (depth : Nat) (path : List Value) (a : Nat) (value : Value) :
    s.account w depth path (.link a) value = s.account w depth path (s.heap.cell a) value := by
  cases depth with
  | zero => rfl
  | succ depth =>
    rw [Setting.account, Setting.account, kind?_link, resolve_cell]
    rcases exists_kind_cell s.heap a with ⟨members, hk⟩ | ⟨entries, hk⟩ <;> rw [hk] <;> rfl

theorem recounts_matchKindless {side : Side} (node value : Value) :
    Recounts side Option.isNone (matchKindless w node node value) fun _ =>
      .decided (Setting.outcomeOfKindless node value) := by
  cases node with
  | object handle content =>
    cases content with
    | bytePattern p =>
      dsimp only [matchKindless, matchForeign, Setting.outcomeOfKindless]
      split
      · exact .fail _
      · exact recounts_refuse
    | _ => exact .fail _
  | _ => exact .fail _

/-- At a node of no kind nothing is run. -/
theorem recounts_no_kind {side : Side} {node : Value} (hk : s.heap.kind? node = none)
    (again : Matcher) (value : Value) (depth : Nat) :
    Recounts side Option.isNone (matchNode s again w node node value) fun path =>
      s.account w (depth + 1) path node value := by
  obtain ⟨hlink, hnode⟩ := ne_link_of_no_kind s.heap hk
  rw [matchNode_of_no_kind s again w hnode hlink]
  unfold Setting.account
  rw [hk]
  exact recounts_matchKindless node value

/-- A run that is not cut short does what the account says, at every depth of the account that is
large enough. -/
theorem exists_recounts_run (lane : w.lane = .own) (d : Nat) (node known value : Value)
    (plain : PlainWithin s.toWorld node) (hknown : known = node ∨ s.heap.kind? node ≠ none) :
    ∃ least, ∀ depth, least ≤ depth →
      Recounts .run Option.isNone (matchWithin s d w known node value) fun path =>
        s.account w depth path node value := by
  induction d generalizing node known value with
  | zero => exact ⟨0, fun _ _ _ => .inl rfl⟩
  | succ d ihlink =>
    induction node using Value.kind_induction generalizing known value with
    | step node ih =>
      rcases node.link_or with ⟨a, rfl⟩ | hne
      · obtain ⟨least, hleast⟩ := ihlink (s.heap.cell a) (.link a) value plain.cell
          (.inr (kind?_cell_ne_none s.heap a))
        refine ⟨least, fun depth hdepth => ?_⟩
        have hrun := hleast depth hdepth
        simp only [account_link]
        exact hrun
      · have hresolve : s.heap.resolve node = node := resolve_of_ne_link s.heap hne
        cases hk : node.kind? with
        | none =>
          have hkind : s.heap.kind? node = none := by rw [Heap.kind?, hresolve, hk]
          rcases hknown with rfl | hsome
          · refine ⟨1, fun depth hdepth => ?_⟩
            obtain ⟨depth, rfl⟩ : ∃ m, depth = m + 1 := ⟨depth - 1, by omega⟩
            exact recounts_no_kind hkind _ value depth
          · exact absurd hkind hsome
        | some k =>
          have hkind : s.heap.kind? node = some k := kind?_of_kind s.heap hk
          obtain ⟨least, hleast⟩ := exists_depth (s.tasks value k) fun task htask =>
            have hpart := Setting.mem_parts_of_mem_tasks htask
            ih k hk task.1 hpart task.1 task.2 (plain.part hkind hpart) (.inl rfl)
          refine ⟨least + 1, fun depth hdepth => ?_⟩
          obtain ⟨depth, rfl⟩ : ∃ m, depth = m + 1 := ⟨depth - 1, by omega⟩
          show Recounts .run Option.isNone
            (matchNode s (matchWithin s d) w known node value) _
          rw [matchNode_of_kind s (matchWithin s d) w hk]
          simp only [Setting.account, hkind, hresolve]
          refine recounts_matchKind lane
            (fun p x => matchWithin_samePlace s (d + 1) w p p x) ?_
            (hleast depth (by omega))
          rintro rfl
          exact recounts_ask hk (plain node .here) (matchWithin s d) value

/-- A run does what an account says that is not cut short, at every depth of the run that is large
enough. -/
theorem exists_recounts_account (lane : w.lane = .own) (depth : Nat) (node value : Value)
    (plain : PlainWithin s.toWorld node) :
    ∃ least, ∀ d, least ≤ d →
      Recounts .account Option.isNone (matchWithin s d w node node value) fun path =>
        s.account w depth path node value := by
  induction depth generalizing node value with
  | zero => exact ⟨0, fun _ _ _ => .inl rfl⟩
  | succ depth ih =>
    cases hk : s.heap.kind? node with
    | none =>
      refine ⟨1, fun d hd => ?_⟩
      obtain ⟨d, rfl⟩ : ∃ m, d = m + 1 := ⟨d - 1, by omega⟩
      exact recounts_no_kind hk (matchWithin s d) value depth
    | some k =>
      obtain ⟨least, hleast⟩ := exists_depth (s.tasks value k) fun task htask =>
        ih task.1 task.2 (plain.part hk (Setting.mem_parts_of_mem_tasks htask))
      refine ⟨least + 2, fun d hd => ?_⟩
      obtain ⟨d, rfl⟩ : ∃ m, d = m + 2 := ⟨d - 2, by omega⟩
      obtain ⟨d', hle, -, hrun⟩ := matchWithin_of_kind (w := w) hk d value
      rw [hrun]
      simp only [Setting.account, hk]
      refine recounts_matchKind lane (fun p x => matchWithin_samePlace s (d' + 1) w p p x) ?_
        (hleast (d' + 1) (by omega))
      rintro rfl
      have hresolve := resolve_of_predicate s.heap hk
      have hkind : (s.heap.resolve node).kind? = some .predicate := hk
      rw [hresolve] at hkind ⊢
      exact recounts_ask hkind (plain node .here) (matchWithin s d') value

end

/-! ## Validations -/

theorem lane_ofOptions {h : Heap} {lane : Lane} {options : Options} {w : Validator}
    (hw : Validator.ofOptions h lane options = .ok w) : w.lane = lane := by
  obtain ⟨closed, -, hclosed⟩ := exists_of_bind_eq_ok hw
  cases hclosed
  rfl

theorem lane_of_setting {world : World} {options : Value} {s : Setting}
    (hs : world.setting options = .ok s) : s.owner.lane = .own := by
  obtain ⟨o, -, hv⟩ := exists_of_bind_eq_ok hs
  obtain ⟨w, hw, hpure⟩ := exists_of_bind_eq_ok hv
  cases hpure
  exact lane_ofOptions hw

/-- The account of a validation from a path on; options that mean nothing are its failure. -/
def World.account (world : World) (depth : Nat) (path : List Value)
    (schema value options : Value) : Account :=
  match world.setting options with
  | .ok s => s.account s.owner depth path schema value
  | .error failure => .decided (.error failure)

/-- How the bodies that are run show in a validation that starts with some calls. -/
structure Surfaces (out : Except Failure (Option Mismatch) × Trace) (calls : List Call)
    (a : Account) : Prop where
  outcome : out.1.map Option.isNone = a.outcome
  /-- The calls are those of the bodies that are run, one of each. -/
  calls : out.1 ≠ .error .endless → out.2.calls = calls ++ a.runs.filterMap BodyRun.call
  /-- No body is run after one that fails. -/
  last : ∀ before run after failure, a.runs = before ++ run :: after → run.Raises failure →
    after = []
  /-- The validation fails with the failure of a body just if the last body fails with it. -/
  raised : ∀ failure, (∃ run, a.runs.getLast? = some run ∧ run.Raises failure) ↔
    out.1 = .error failure ∧ ∃ run ∈ a.runs, run.Raises failure

theorem map_isNone_eq_error {out : Except Failure (Option Mismatch)} {failure : Failure} :
    out.map Option.isNone = .error failure ↔ out = .error failure := by
  cases out with
  | error e => exact ⟨fun h => by cases h; rfl, fun h => by cases h; rfl⟩
  | ok found => exact ⟨nofun, nofun⟩

theorem surfaces_of_lawful {out : Except Failure (Option Mismatch) × Trace} {calls : List Call}
    {a : Account} (ha : a.Lawful) (houtcome : out.1.map Option.isNone = a.outcome)
    (hcalls : out.1 ≠ .error .endless → out.2.calls = calls ++ a.runs.filterMap BodyRun.call) :
    Surfaces out calls a := by
  refine ⟨houtcome, hcalls, fun before run after failure hruns => ha.nothing_after hruns,
    fun failure => ?_⟩
  rw [ha.raised_iff failure, ← houtcome, map_isNone_eq_error]

theorem exists_surfaces {s : Setting} (lane : s.owner.lane = .own) {schema : Value}
    (plain : PlainWithin s.toWorld schema) (value : Value) (t : Trace) :
    ∃ least, ∀ depth, least ≤ depth → Surfaces (s.validate schema value t) t.calls
      (s.account s.owner depth t.path schema value) := by
  by_cases hends : ∃ d, (matchWithin s d s.owner schema schema value t).1 ≠ .error .endless
  · obtain ⟨d, hd⟩ := hends
    obtain ⟨least, hleast⟩ := exists_recounts_run lane d schema schema value plain (.inl rfl)
    refine ⟨least, fun depth hdepth => ?_⟩
    rw [Setting.validate_eq hd]
    rcases hleast depth hdepth t with hcut | ⟨houtcome, hcalls⟩
    · exact absurd hcut hd
    · exact surfaces_of_lawful (s.account_lawful ..) houtcome fun _ => hcalls
  · have hcut (d : Nat) : (matchWithin s d s.owner schema schema value t).1 = .error .endless :=
      Classical.not_not.mp fun hd => hends ⟨d, hd⟩
    have hendless := Setting.validate_endless hcut
    refine ⟨0, fun depth _ => surfaces_of_lawful (s.account_lawful ..) ?_ (absurd hendless)⟩
    obtain ⟨least, hleast⟩ := exists_recounts_account lane depth schema value plain
    rw [hendless]
    rcases hleast least (Nat.le_refl least) t with haccount | ⟨houtcome, -⟩
    · exact haccount.symm
    · rw [hcut] at houtcome
      exact houtcome

/-- The failure of a predicate's body is never swallowed, replaced or retried: no body is run after
one that fails, its failure is the one of the validation, and a visit of a predicate runs the body
at most once. The predicates must not start validations themselves. -/
theorem validate_surfaces {world : World} {schema : Value} (plain : PlainWithin world schema)
    (value options : Value) (t : Trace) :
    (∃ least, ∀ depth, least ≤ depth → Surfaces (world.validate schema value options t) t.calls
      (world.account depth t.path schema value options)) ∧
    ∀ node, world.heap.kind? node = some .predicate → ∀ depth path v,
      (world.account depth path node v options).runs.length ≤ 1 := by
  unfold World.account
  cases hs : world.setting options with
  | error failure =>
    refine ⟨⟨0, fun depth _ => ?_⟩, fun _ _ _ _ _ => Nat.zero_le 1⟩
    have hrun : world.validate schema value options t = (.error failure, t) := by
      rw [World.validate, hs]
      rfl
    rw [hrun]
    exact surfaces_of_lawful (.decided _) rfl fun _ => (List.append_nil t.calls).symm
  | ok s =>
    obtain rfl := toWorld_of_setting hs
    refine ⟨?_, fun node hk depth path v => s.account_predicate s.owner depth path hk v⟩
    rw [World.validate, hs, lift_ok, pure_bind]
    exact exists_surfaces (lane_of_setting hs) plain value t

/-! ## An example -/

/-- A world of one function, which fails on everything but the number one. -/
def pickyWorld : World where
  heap := .empty
  behaviours := fun _ given =>
    match given.value with
    | .int 1 => .answer (.bool true)
    | _ => .fail (.raised "TypeError" "not one")
  codes := 1

def isOne : Value :=
  .object none (.function (some "is_one") "function" ⟨["value", "options"], 0, false, []⟩ 0 [])

/-- The function, which takes the options too, inside of an array, a union and an object. -/
def pickySchema : Value := .list [.union [.str "string", .mapping [(.str "n", isOne)]]]

def pickyValue : Value :=
  .list [.mapping [(.str "n", .int 1)], .mapping [(.str "n", .int 2)],
    .mapping [(.str "n", .int 1)]]

theorem pickySchema_plain : PlainWithin pickyWorld pickySchema := by
  intro node within handle name className signature code own hfunction given
  show Script.isPlain (match given.value with | .int 1 => _ | _ => _) = true
  split <;> rfl

theorem pickyWorld_surfaces :
    PlainWithin pickyWorld pickySchema ∧
      (∃ least, ∀ depth, least ≤ depth →
        Surfaces (pickyWorld.validate pickySchema pickyValue .null .start) []
          (pickyWorld.account depth [] pickySchema pickyValue .null)) ∧
      ∀ node, pickyWorld.heap.kind? node = some .predicate → ∀ depth path v,
        (pickyWorld.account depth path node v .null).runs.length ≤ 1 :=
  ⟨pickySchema_plain, validate_surfaces pickySchema_plain pickyValue .null .start⟩

/-- The second call fails, and there is no third. -/
example : ((pickyWorld.account 5 [] pickySchema pickyValue .null).runs.map fun run =>
    run.call.map Call.arguments) = [some 2, some 2] := rfl

end Conform
