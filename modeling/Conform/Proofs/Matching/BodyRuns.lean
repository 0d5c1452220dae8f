import Conform.Proofs.Validation.Kinds
/-!
# The bodies that a validation runs

An account of a validation lists the bodies of predicates that it runs, in order, and says what
comes of it. It is read off from the schema and the value: the parts of arrays, unions and objects
are gone through in turn, up to the first that decides or fails. A body that fails is the last one
on the list, and its failure is what comes of the whole.
-/

set_option autoImplicit false

namespace Conform

/-! ## Bodies -/

/-- Scripts that answer or fail at once, without starting a validation. -/
def Script.isPlain : Script → Bool
  | .answer _ => true
  | .fail _ => true
  | _ => false

/-- What comes of a plain script, the truth test of its answer included. Validations that other
scripts start are not followed. -/
def Script.outcome (h : Heap) : Script → Except Failure Bool
  | .answer v => h.truth v
  | .fail failure => .error failure
  | _ => .error .endless

/-- A run of the body of a predicate, with the record that is kept of the call, if one is: none is
kept of built-in predicates and of host functions. -/
structure BodyRun where
  predicate : Value
  value : Value
  call : Option Call
  answer : Except Failure Bool

namespace BodyRun

/-- The body fails, or the truth test of its result does. -/
def Raises (run : BodyRun) (failure : Failure) : Prop := run.answer = .error failure

end BodyRun

/-- The run of the body of a predicate when it is asked at a path; or the failure of a call that
does not reach the body. -/
def Setting.bodyRun (s : Setting) (w : Validator) (path : List Value) (predicate value : Value) :
    Except Failure BodyRun :=
  match predicate with
  | .check c => .ok ⟨predicate, value, none, c.holds value⟩
  | .object _ (.host f) => .ok ⟨predicate, value, none, f.holds s.heap value⟩
  | .object _ (.function name className signature code _) =>
    let options := if signature.accepts 2 then some w.options else none
    let given : Given := ⟨value, options⟩
    match signature.misfit? given.count with
    | some misfit => .error (.misfit (name.getD (className ++ ".__call__")) misfit)
    | none =>
      .ok ⟨predicate, value, some ⟨name, value, given.count, path⟩,
        (s.behaviours code given).outcome s.heap⟩
  | _ => .error (.unsupportedNode predicate)

/-! ## Accounts -/

/-- The bodies that are run, in order, and whether the value passes, or the failure. -/
structure Account where
  runs : List BodyRun
  outcome : Except Failure Bool

namespace Account

/-- Nothing is run. -/
def decided (outcome : Except Failure Bool) : Account := ⟨[], outcome⟩

def ofBodyRun : Except Failure BodyRun → Account
  | .ok run => ⟨[run], run.answer⟩
  | .error failure => decided (.error failure)

/-- Goes on with what comes next only if this comes out as `go`. -/
def andThen (a : Account) (go : Bool) (next : Account) : Account :=
  match a.outcome with
  | .ok passed => if passed = go then ⟨a.runs ++ next.runs, next.outcome⟩ else a
  | .error _ => a

/-- Goes through accounts while they come out as `go`. -/
def inTurn (go : Bool) (accounts : List Account) : Account :=
  accounts.foldr (fun a rest => a.andThen go rest) (decided (.ok go))

theorem andThen_of_go {a : Account} {go : Bool} (h : a.outcome = .ok go) (next : Account) :
    a.andThen go next = ⟨a.runs ++ next.runs, next.outcome⟩ := by
  rw [andThen, h]
  exact if_pos rfl

theorem andThen_of_ne {a : Account} {go : Bool} (h : a.outcome ≠ .ok go) (next : Account) :
    a.andThen go next = a := by
  unfold andThen
  split
  · next passed hpassed =>
    refine if_neg ?_
    rintro rfl
    exact h hpassed
  · rfl

end Account

namespace Setting

/-- The account of reading a property and going on with what is read. -/
def readThen (s : Setting) (value name : Value) (go : Value → Account) : Account :=
  match s.heap.property value name with
  | .ok read => go read
  | .error failure => .decided (.error failure)

section

variable (s : Setting) (w : Validator) (part : (path : List Value) → Value → Value → Account)
  (path : List Value)

/-- The account of an array, by accounts of its parts, each at its own path. -/
def accountOfPairs : Option (List (Value × Value)) → Account
  | none => .decided (.ok false)
  | some pairs =>
    .inTurn true (pairs.zipIdx.map fun (pair, i) => part (path ++ [.int i]) pair.1 pair.2)

/-- The account of an object whose properties are gone to. -/
def accountOfEntries (value : Value) (entries : List (Value × Value)) : Account :=
  .inTurn true (entries.map fun e =>
    s.readThen value e.1 fun read => part (path ++ [e.1]) e.2 read)

/-- Whether a value owns a name that is not declared, where that is forbidden. -/
def ownsMore (value : Value) (entries : List (Value × Value)) : Bool :=
  w.closed && !(s.heap.ownNames value).all fun name => entries.any fun e => s.heap.equal name e.1

/-- The account of matching a value against a schema of a kind. -/
def accountOfKind (schema value : Value) : Kind → Account
  | .atom name => .decided (.ok (value.typeof == name))
  | .predicate => .ofBodyRun (s.bodyRun w path schema value)
  | .pattern p => .decided (.ok ((value.text?.map p.search).getD false))
  | .array members => accountOfPairs part path (s.pairs members value)
  | .union members => .inTurn false (members.map fun member => part path member value)
  | .object entries =>
    if !value.isPlainObject || s.heap.isArray value then .decided (.ok false)
    else if w.closed && entries.length < (s.heap.ownNames value).length then .decided (.ok false)
    else (s.accountOfEntries part path value entries).andThen true
      (.decided (.ok !s.ownsMore w value entries))

end

/-- What comes of matching a value against a node of no kind, where nothing is run. -/
def outcomeOfKindless (node value : Value) : Except Failure Bool :=
  match node with
  | .object _ (.bytePattern _) =>
    if value.text?.isSome then .error .patternOfBytes else .ok false
  | _ => .error (.unsupportedNode node)

/-- The account of matching a value against a schema, to a depth of schemas inside one another. -/
def account (s : Setting) (w : Validator) :
    Nat → (path : List Value) → (schema value : Value) → Account
  | 0, _, _, _ => .decided (.error .endless)
  | depth + 1, path, schema, value =>
    match s.heap.kind? schema with
    | none => .decided (outcomeOfKindless schema value)
    | some k => s.accountOfKind w (s.account w depth) path (s.heap.resolve schema) value k

end Setting

/-! ## The law of accounts -/

namespace Account

/-- All bodies answer; or the last one fails, and its failure is what comes of the whole. -/
inductive Lawful : Account → Prop
  | answered {a : Account} (all : ∀ run ∈ a.runs, ∀ failure, ¬ run.Raises failure) : Lawful a
  | raised {before : List BodyRun} {last : BodyRun} {failure : Failure}
      (all : ∀ run ∈ before, ∀ failure, ¬ run.Raises failure) (raises : last.Raises failure) :
      Lawful ⟨before ++ [last], .error failure⟩

theorem Lawful.decided (outcome : Except Failure Bool) : Lawful (decided outcome) :=
  .answered (List.forall_mem_nil _)

theorem Lawful.ofBodyRun (run : Except Failure BodyRun) : Lawful (ofBodyRun run) := by
  cases run with
  | error failure => exact .decided _
  | ok run =>
    cases hrun : run.answer with
    | error failure =>
      have hraised : Lawful ⟨[] ++ [run], .error failure⟩ :=
        .raised (List.forall_mem_nil _) hrun
      rw [Account.ofBodyRun, hrun]
      exact hraised
    | ok passed =>
      refine .answered fun r hr failure hraises => ?_
      cases List.mem_singleton.mp hr
      cases hrun.symm.trans hraises

/-- Nothing follows a failure, and what comes of an account that does not fail is its own. -/
theorem Lawful.andThen {a next : Account} (ha : Lawful a) (hnext : Lawful next) (go : Bool) :
    Lawful (a.andThen go next) := by
  by_cases hgo : a.outcome = .ok go
  · rw [andThen_of_go hgo]
    cases ha with
    | raised => cases hgo
    | answered all =>
      have hboth {rest : List BodyRun} (hrest : ∀ run ∈ rest, ∀ failure, ¬ run.Raises failure) :
          ∀ run ∈ a.runs ++ rest, ∀ failure, ¬ run.Raises failure := by
        intro run hr
        rcases List.mem_append.mp hr with hr | hr
        · exact all run hr
        · exact hrest run hr
      cases hnext with
      | answered all' => exact .answered (hboth all')
      | @raised before last failure all' raises =>
        show Lawful ⟨a.runs ++ (before ++ [last]), .error failure⟩
        rw [← List.append_assoc]
        exact .raised (hboth all') raises
  · rw [andThen_of_ne hgo]
    exact ha

theorem Lawful.inTurn {accounts : List Account} (h : ∀ a ∈ accounts, Lawful a) (go : Bool) :
    Lawful (inTurn go accounts) := by
  induction accounts with
  | nil => exact .decided _
  | cons a accounts ih =>
    obtain ⟨ha, hrest⟩ := List.forall_mem_cons.mp h
    exact ha.andThen (ih hrest) go

/-- No body is run after one that fails. -/
theorem Lawful.nothing_after {a : Account} (h : Lawful a) {before after : List BodyRun}
    {run : BodyRun} (hruns : a.runs = before ++ run :: after) {failure : Failure}
    (hraises : run.Raises failure) : after = [] := by
  cases h with
  | answered all =>
    have hmem : run ∈ a.runs := by
      rw [hruns]
      exact List.mem_append_right _ (List.mem_cons_self ..)
    exact absurd hraises (all run hmem failure)
  | @raised earlier last _ all _ =>
    by_contra hne
    -- What is not last is among those that all answered.
    have hmem : run ∈ earlier := by
      have hdrop := congrArg List.dropLast hruns
      rw [List.dropLast_concat, List.dropLast_append_of_ne_nil (List.cons_ne_nil _ _),
        List.dropLast_cons_of_ne_nil hne] at hdrop
      rw [hdrop]
      exact List.mem_append_right _ (List.mem_cons_self ..)
    exact all run hmem failure hraises

/-- The failure of a body is what comes of the whole just if the last body fails with it. -/
theorem Lawful.raised_iff {a : Account} (h : Lawful a) (failure : Failure) :
    (∃ last, a.runs.getLast? = some last ∧ last.Raises failure) ↔
      a.outcome = .error failure ∧ ∃ run ∈ a.runs, run.Raises failure := by
  constructor
  · rintro ⟨last, hlast, hraises⟩
    have hmem := List.mem_of_getLast? hlast
    refine ⟨?_, last, hmem, hraises⟩
    cases h with
    | answered all => exact absurd hraises (all last hmem failure)
    | raised all raises =>
      rw [List.getLast?_concat] at hlast
      cases hlast
      cases raises.symm.trans hraises
      rfl
  · rintro ⟨houtcome, run, hmem, hraises⟩
    cases h with
    | answered all => exact absurd hraises (all run hmem failure)
    | @raised before last _ all raises =>
      cases houtcome
      exact ⟨last, List.getLast?_concat, raises⟩

end Account

section

variable {s : Setting} {w : Validator} {part : List Value → Value → Value → Account}
  (hpart : ∀ path schema value, (part path schema value).Lawful) (path : List Value)
include hpart

theorem Setting.accountOfPairs_lawful (pairs : Option (List (Value × Value))) :
    (accountOfPairs part path pairs).Lawful := by
  cases pairs with
  | none => exact .decided _
  | some pairs =>
    refine .inTurn (fun a ha => ?_) true
    obtain ⟨entry, -, rfl⟩ := List.mem_map.mp ha
    exact hpart _ _ _

theorem Setting.accountOfEntries_lawful (value : Value) (entries : List (Value × Value)) :
    (s.accountOfEntries part path value entries).Lawful := by
  refine .inTurn (fun a ha => ?_) true
  obtain ⟨e, -, rfl⟩ := List.mem_map.mp ha
  unfold readThen
  split
  · exact hpart _ _ _
  · exact .decided _

theorem Setting.accountOfKind_lawful (schema value : Value) (k : Kind) :
    (s.accountOfKind w part path schema value k).Lawful := by
  cases k with
  | atom name => exact .decided _
  | predicate => exact .ofBodyRun _
  | pattern p => exact .decided _
  | array members => exact accountOfPairs_lawful hpart path _
  | union members =>
    refine .inTurn (fun a ha => ?_) false
    obtain ⟨member, -, rfl⟩ := List.mem_map.mp ha
    exact hpart _ _ _
  | object entries =>
    rw [accountOfKind]
    split
    · exact .decided _
    split
    · exact .decided _
    exact (accountOfEntries_lawful hpart path value entries).andThen (.decided _) true

end

theorem Setting.account_lawful (s : Setting) (w : Validator) (depth : Nat) (path : List Value)
    (schema value : Value) : (s.account w depth path schema value).Lawful := by
  induction depth generalizing path schema value with
  | zero => exact .decided _
  | succ depth ih =>
    rw [account]
    split
    · exact .decided _
    · exact accountOfKind_lawful ih path _ value _

/-- A visit of a predicate runs its body once, or not at all. -/
theorem Setting.account_predicate (s : Setting) (w : Validator) (depth : Nat) (path : List Value)
    {node : Value} (hk : s.heap.kind? node = some .predicate) (value : Value) :
    (s.account w depth path node value).runs.length ≤ 1 := by
  cases depth with
  | zero => exact Nat.zero_le 1
  | succ depth =>
    rw [account, hk]
    dsimp only [accountOfKind]
    cases s.bodyRun w path (s.heap.resolve node) value with
    | error failure => exact Nat.zero_le 1
    | ok run => exact Nat.le_refl 1

end Conform
