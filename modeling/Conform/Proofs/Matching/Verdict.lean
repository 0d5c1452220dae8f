import Conform.Proofs.Matching.Judged
/-!
# What matching gives

For a well-formed schema and any value, a validation ends. Main statements:
`test_eq_true_iff_matches` and `validate_reports_failingWalk`.
-/

set_option autoImplicit false

namespace Conform

open Validation

/-! ## Well-formed schemas -/

variable {s : Setting} {w : Validator}

/-- Matching with enough depth does what the kind of the schema asks for, its links followed. -/
theorem matchWithin_of_kind {schema : Value} {k : Kind} (hk : s.heap.kind? schema = some k)
    (d : Nat) (value : Value) :
    ∃ d', d ≤ d' ∧ d' ≤ d + 1 ∧ matchWithin s (d + 2) w schema schema value
      = matchKind s w schema value
          (s.ask (matchWithin s d') w (s.heap.resolve schema) value)
          (fun part x => matchWithin s (d' + 1) w part part x) k := by
  rcases schema.link_or with ⟨a, rfl⟩ | hne
  · exact ⟨d, Nat.le_refl d, Nat.le_succ d,
      matchNode_of_kind s (matchWithin s d) w hk (.link a) value⟩
  · have hresolve : s.heap.resolve schema = schema := resolve_of_ne_link s.heap hne
    rw [Heap.kind?, hresolve] at hk
    rw [hresolve]
    exact ⟨d + 1, Nat.le_succ d, Nat.le_refl (d + 1),
      matchNode_of_kind s (matchWithin s (d + 1)) w hk schema value⟩

/-- Finitely many things that hold from some depth on hold together from some depth on. -/
theorem exists_depth {α : Type} {P : α → Nat → Prop} (l : List α)
    (h : ∀ a ∈ l, ∃ least, ∀ d, least ≤ d → P a d) :
    ∃ least, ∀ d, least ≤ d → ∀ a ∈ l, P a d := by
  induction l with
  | nil => exact ⟨0, fun d _ a ha => by cases ha⟩
  | cons a l ih =>
    obtain ⟨n, hn⟩ := h a (List.mem_cons_self ..)
    obtain ⟨m, hm⟩ := ih fun b hb => h b (List.mem_cons_of_mem a hb)
    refine ⟨max n m, fun d hd b hb => ?_⟩
    rcases List.mem_cons.mp hb with rfl | hb
    · exact hn d (by omega)
    · exact hm d (by omega) b hb

/-- From some depth on, matching a value against a well-formed schema is decided. -/
theorem judged_matchWithin {schema : Value} (h : WellFormed s.heap schema) (value : Value) :
    ∃ least, ∀ d, least ≤ d → ∀ t,
      Judged s w schema value (t.pathIn w.lane) (matchWithin s d w schema schema value t).1 := by
  induction h generalizing value with
  | @intro schema k kind parts ih =>
    obtain ⟨answer, n, hanswer⟩ := exists_answer s w schema value
    obtain ⟨m, hm⟩ := exists_depth (s.tasks value k) fun task htask =>
      ih task.1 (Setting.mem_parts_of_mem_tasks htask) task.2
    refine ⟨max n m + 2, fun d hd t => ?_⟩
    obtain ⟨d, rfl⟩ : ∃ d₀, d = d₀ + 2 := ⟨d - 2, by omega⟩
    obtain ⟨d', hle, -, hrun⟩ := matchWithin_of_kind (w := w) kind d value
    rw [hrun]
    refine judged_matchKind (fun part x => matchWithin_samePlace s (d' + 1) w part part x) kind
      (ask_samePlace s d' w _ value) (fun hp u => ?_) (fun task htask => ?_) t
    · subst hp
      rw [resolve_of_predicate s.heap kind, hanswer d' (by omega) u]
      exact ⟨n, hanswer⟩
    · exact hm (d' + 1) (by omega) task htask

/-! ## An example -/

/-- A world that shares one list, and a validator that forbids undeclared properties. -/
def ticketSetting : Setting :=
  ⟨⟨.ofCells #[.list [.int 1, .int 2]], fun _ _ => .answer .null, 0⟩, ⟨⟨.bool true⟩, true, .own⟩⟩

def ticketOptions : Value := .mapping [(.str "no_excess_props", .bool true)]

def ticketSchema : Value :=
  .mapping [(.str "ids", .list [.check .integer]), (.str "tag", .union [.str "string", .list []])]

def ticket : Value := .mapping [(.str "ids", .link 0), (.str "tag", .bool true)]

theorem wellFormed_of_tag {tag : Value} (htag : WellFormed ticketSetting.heap tag) :
    WellFormed ticketSetting.heap
      (.mapping [(.str "ids", .list [.check .integer]), (.str "tag", tag)]) := by
  have integer : WellFormed ticketSetting.heap (.check .integer) :=
    .intro (k := .predicate) rfl nofun
  have ids : WellFormed ticketSetting.heap (.list [.check .integer]) :=
    .intro (k := .array _) rfl (List.forall_mem_singleton.mpr integer)
  exact .intro (k := .object _) rfl
    (List.forall_mem_cons.mpr ⟨ids, List.forall_mem_singleton.mpr htag⟩)

theorem ticketSchema_wellFormed : WellFormed ticketSetting.heap ticketSchema := by
  have text : WellFormed ticketSetting.heap (.str "string") := .intro (k := .atom _) rfl nofun
  have anything : WellFormed ticketSetting.heap (.list []) := .intro (k := .array _) rfl nofun
  exact wellFormed_of_tag (.intro (k := .union _) rfl
    (List.forall_mem_cons.mpr ⟨text, List.forall_mem_singleton.mpr anything⟩))

theorem not_raises_text (failure : Failure) :
    ¬ Raises ticketSetting ticketSetting.owner (.str "string") (.bool true) failure :=
  not_raises_of_tasks (k := .atom _) rfl nofun nofun nofun failure

theorem not_raises_anything (failure : Failure) :
    ¬ Raises ticketSetting ticketSetting.owner (.list []) (.bool true) failure :=
  not_raises_of_tasks (k := .array _) rfl nofun nofun (List.forall_mem_nil _) failure

/-- Nothing fails at a ticket if nothing fails at its tag. -/
theorem not_raises_of_tag {tag : Value}
    (htag : ∀ failure, ¬ Raises ticketSetting ticketSetting.owner tag (.bool true) failure)
    (failure : Failure) :
    ¬ Raises ticketSetting ticketSetting.owner
      (.mapping [(.str "ids", .list [.check .integer]), (.str "tag", tag)]) ticket failure := by
  have ids (failure : Failure) :
      ¬ Raises ticketSetting ticketSetting.owner (.list [.check .integer]) (.link 0) failure :=
    not_raises_of_tasks (k := .array _) rfl nofun nofun
      (List.forall_mem_cons.mpr
        ⟨not_raises_check rfl, List.forall_mem_singleton.mpr (not_raises_check rfl)⟩) failure
  have readable : ∀ e ∈ [(Value.str "ids", Value.list [.check .integer]), (.str "tag", tag)],
      ∃ read, ticketSetting.heap.property ticket e.1 = .ok read :=
    List.forall_mem_cons.mpr ⟨⟨.link 0, rfl⟩, List.forall_mem_singleton.mpr ⟨.bool true, rfl⟩⟩
  refine not_raises_of_tasks (k := .object _) rfl nofun (fun entries h => ?_)
    (List.forall_mem_cons.mpr ⟨ids, List.forall_mem_singleton.mpr htag⟩) failure
  cases h
  exact readable

theorem not_raises_ticket (failure : Failure) :
    ¬ Raises ticketSetting ticketSetting.owner ticketSchema ticket failure := by
  refine not_raises_of_tag (fun failure => ?_) failure
  exact not_raises_of_tasks (k := .union _) rfl nofun nofun
    (List.forall_mem_cons.mpr
      ⟨not_raises_text, List.forall_mem_singleton.mpr not_raises_anything⟩) failure

/-! ## Validations -/

theorem judged_validate {schema : Value} (h : WellFormed s.heap schema) (value : Value)
    (t : Trace) :
    Judged s s.owner schema value (t.pathIn s.owner.lane) (s.validate schema value t).1 := by
  obtain ⟨least, hleast⟩ := judged_matchWithin (w := s.owner) h value
  by_cases hends : ∃ d, (matchWithin s d s.owner schema schema value t).1 ≠ .error .endless
  · obtain ⟨d, hd⟩ := hends
    rw [Setting.validate_eq hd, ← matchWithin_of_le (Nat.le_max_left d least) hd]
    exact hleast (max d least) (Nat.le_max_right d least) t
  · have hcut (d : Nat) : (matchWithin s d s.owner schema schema value t).1 = .error .endless :=
      Classical.not_not.mp fun hd => hends ⟨d, hd⟩
    rw [Setting.validate_endless hcut, ← hcut least]
    exact hleast least (Nat.le_refl least) t

/-- If no predicate and no reading of a property fails, a validation returns: nothing if the value
matches, and otherwise a mismatch that leads, from where the validator is, along the only failing
walk to its end. -/
theorem validate_reports_failingWalk {schema value : Value} (h : WellFormed s.heap schema)
    (hraise : ∀ failure, ¬ Raises s s.owner schema value failure) (t : Trace) :
    ∃ found t', s.validate schema value t = (.ok found, t') ∧
      (found = none ↔ Matches s s.owner schema value) ∧
      (∀ m : Mismatch, found = some m ↔ ∃ walk,
        FailingWalk s s.owner schema value walk m.expected m.actual ∧
          m.path = t.pathIn s.owner.lane ++ walk) ∧
      ∀ (walk walk' : List Value) (expected expected' actual actual' : Value),
        FailingWalk s s.owner schema value walk expected actual →
        FailingWalk s s.owner schema value walk' expected' actual' →
        walk = walk' ∧ expected = expected' ∧ actual = actual' := by
  have hj := judged_validate h value t
  have hunique (walk walk' : List Value) (expected expected' actual actual' : Value)
      (hwalk : FailingWalk s s.owner schema value walk expected actual)
      (hwalk' : FailingWalk s s.owner schema value walk' expected' actual') :
      walk = walk' ∧ expected = expected' ∧ actual = actual' := eq_of_failingWalk hwalk hwalk'
  rcases hrun : s.validate schema value t with ⟨out, t'⟩
  rw [hrun] at hj
  dsimp only at hj
  cases hj with
  | passed hm =>
    refine ⟨none, t', rfl, ⟨fun _ => hm, fun _ => rfl⟩, fun m => ⟨fun hf => (by cases hf), ?_⟩,
      hunique⟩
    rintro ⟨walk, hwalk, -⟩
    exact absurd hm (not_matches_of_failingWalk hwalk)
  | @refused walk expected actual hwalk =>
    refine ⟨_, t', rfl, ⟨fun hf => (by cases hf), fun hm => ?_⟩, fun m => ⟨fun hf => ?_, ?_⟩,
      hunique⟩
    · exact absurd hm (not_matches_of_failingWalk hwalk)
    · cases hf
      exact ⟨walk, hwalk, rfl⟩
    · rintro ⟨walk', hwalk', hpath⟩
      obtain ⟨rfl, rfl, rfl⟩ := eq_of_failingWalk hwalk hwalk'
      rw [← hpath]
  | raised hr => exact absurd hr (hraise _)

/-- The walk of a ticket with a wrong tag starts at the path that the validator has reached. -/
theorem validate_ticket_reports_failingWalk :
    WellFormed ticketSetting.heap ticketSchema ∧
      (∀ failure, ¬ Raises ticketSetting ticketSetting.owner ticketSchema ticket failure) ∧
      ∃ found t', ticketSetting.validate ticketSchema ticket ⟨[.str "tickets", .int 0], [], []⟩
          = (.ok found, t') ∧
        (found = none ↔ Matches ticketSetting ticketSetting.owner ticketSchema ticket) ∧
        (∀ m : Mismatch, found = some m ↔ ∃ walk,
          FailingWalk ticketSetting ticketSetting.owner ticketSchema ticket walk
              m.expected m.actual ∧
            m.path = [.str "tickets", .int 0] ++ walk) :=
  have ⟨found, t', hrun, hnone, hsome, _⟩ := validate_reports_failingWalk
    ticketSchema_wellFormed not_raises_ticket ⟨[.str "tickets", .int 0], [], []⟩
  ⟨ticketSchema_wellFormed, not_raises_ticket, found, t', hrun, hnone, hsome⟩

theorem toWorld_of_setting {world : World} {options : Value}
    (hs : world.setting options = .ok s) : s.toWorld = world := by
  obtain ⟨o, -, howner⟩ := exists_of_bind_eq_ok hs
  obtain ⟨w, -, hpure⟩ := exists_of_bind_eq_ok howner
  cases hpure
  rfl

/-- If no predicate and no reading of a property fails, a test returns, and the answer is whether
the value matches the schema. -/
theorem test_eq_true_iff_matches {world : World} {schema value options : Value} {s : Setting}
    (hs : world.setting options = .ok s) (h : WellFormed world.heap schema)
    (hraise : ∀ failure, ¬ Raises s s.owner schema value failure) (t : Trace) :
    ∃ passed t', world.test schema value options t = (.ok passed, t') ∧
      (passed = true ↔ Matches s s.owner schema value) := by
  obtain rfl := toWorld_of_setting hs
  have hj := judged_validate h value t
  rw [World.test, World.validate, hs, lift_ok, pure_bind]
  rcases hrun : s.validate schema value t with ⟨out, t'⟩
  rw [hrun] at hj
  dsimp only at hj
  cases hj with
  | passed hm =>
    refine ⟨true, t', bind_of_ok hrun _, fun _ => hm, fun _ => rfl⟩
  | refused hwalk =>
    refine ⟨false, t', bind_of_ok hrun _, fun hp => (by cases hp), fun hm => ?_⟩
    exact absurd hm (not_matches_of_failingWalk hwalk)
  | raised hr => exact absurd hr (hraise _)

theorem test_ticket_eq_true_iff_matches :
    ticketSetting.setting ticketOptions = .ok ticketSetting ∧
      WellFormed ticketSetting.heap ticketSchema ∧
      (∀ failure, ¬ Raises ticketSetting ticketSetting.owner ticketSchema ticket failure) ∧
      ∃ passed t', ticketSetting.test ticketSchema ticket ticketOptions Trace.start
          = (.ok passed, t') ∧
        (passed = true ↔ Matches ticketSetting ticketSetting.owner ticketSchema ticket) :=
  ⟨rfl, ticketSchema_wellFormed, not_raises_ticket,
    test_eq_true_iff_matches (s := ticketSetting) rfl
      ticketSchema_wellFormed not_raises_ticket Trace.start⟩

end Conform
