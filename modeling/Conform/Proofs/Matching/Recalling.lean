import Conform.Proofs.Matching.Located
/-!
# Predicates that remember

A predicate may also answer by what has been asked before it. It is then a behaviour for each record
of calls. Matching with such predicates is matching with the behaviours of the moment at every
question; if the record does not matter to them, it is matching as it was. It keeps its place, and
its paths lead to the values that predicates receive, whatever these remember. Main statement:
`validateRecallingChecked_eq`.
-/

set_option autoImplicit false

namespace Conform

open Validation

/-- What functions do, by the calls made so far. -/
abbrev Memory := List Call → Behaviours

/-- The setting of the moment. -/
def Setting.after (s : Setting) (memory : Memory) (t : Trace) : Setting :=
  { s with behaviours := memory t.calls }

def Setting.askRecalling (s : Setting) (memory : Memory) (again : Matcher) (w : Validator)
    (predicate value : Value) : Validation Bool := fun t =>
  (s.after memory t).ask again w predicate value t

/-- Matches with at most `depth` links and validations by predicates inside one another. -/
noncomputable def matchRecalling (s : Setting) (memory : Memory) : Nat → Matcher
  | 0 => fun _ _ _ _ => Validation.fail .endless
  | depth + 1 => fun w known node value =>
    matchAsking s (s.askRecalling memory (matchRecalling s memory depth))
      (matchRecalling s memory depth) (sizeOf node + 1) w known node value

noncomputable def Setting.validateRecalling (s : Setting) (memory : Memory)
    (schema value : Value) : Validation (Option Mismatch) :=
  Validation.deepening (fun depth => matchRecalling s memory depth s.owner schema schema value)
    (s.depthFor schema value)

/-- Matches with a check of the path ahead of every call of a predicate. -/
noncomputable def matchRecallingChecked (s : Setting) (memory : Memory) (lost : Failure) :
    Nat → Watch → Matcher
  | 0, _ => fun _ _ _ _ => Validation.fail .endless
  | depth + 1, watch => fun w known node value =>
    matchAsking s
      (fun w predicate value t => (s.after memory t).askChecked lost
        (matchRecallingChecked s memory lost depth) watch w predicate value t)
      (matchRecallingChecked s memory lost depth watch) (sizeOf node + 1) w known node value

noncomputable def Setting.validateRecallingChecked (s : Setting) (memory : Memory)
    (lost : Failure) (schema value : Value) : Validation (Option Mismatch) :=
  Validation.deepening
    (fun depth =>
      matchRecallingChecked s memory lost depth (.start value) s.owner schema schema value)
    (s.depthFor schema value)

section

variable {s : Setting} {memory : Memory}

/-! ## Places -/

theorem askRecalling_samePlace {again : Matcher}
    (keeps : ∀ w known node value t, (again w known node value t).2.SamePlace t) (w : Validator)
    (predicate value : Value) (t : Trace) :
    (s.askRecalling memory again w predicate value t).2.SamePlace t :=
  (Correspondence.keepingPlace.ask (s := s.after memory t)
    (fun w known => keeps_outcome (keeps w known)) w predicate value t).1

/-- By induction on the depth: what is asked starts validations of less depth only. -/
theorem matchRecalling_samePlace (depth : Nat) (w : Validator) (known node value : Value)
    (t : Trace) : (matchRecalling s memory depth w known node value t).2.SamePlace t := by
  induction depth generalizing w known node value t with
  | zero => exact .refl t
  | succ depth ih => exact matchAsking_samePlace (askRecalling_samePlace ih w) (ih w) t

/-! ## Predicates that do not remember -/

theorem matchRecalling_eq_of_forgetful (forgetful : ∀ calls, memory calls = s.behaviours)
    (depth : Nat) (w : Validator) (known node value : Value) :
    matchRecalling s memory depth w known node value = matchWithin s depth w known node value := by
  induction depth generalizing w known node value with
  | zero => rfl
  | succ depth ih =>
    have hagain : matchRecalling s memory depth = matchWithin s depth := by
      funext w known node value
      exact ih w known node value
    have hask : s.askRecalling memory (matchWithin s depth) = s.ask (matchWithin s depth) := by
      funext w predicate value t
      rw [Setting.askRecalling, Setting.after, forgetful]
    funext t
    rw [matchRecalling, hagain, hask]
    exact matchAsking_ask (Nat.lt_succ_self _) t

theorem validateRecalling_eq_of_forgetful (forgetful : ∀ calls, memory calls = s.behaviours)
    (schema value : Value) : s.validateRecalling memory schema value = s.validate schema value := by
  unfold Setting.validateRecalling Setting.validate
  simp only [matchRecalling_eq_of_forgetful forgetful]

/-! ## Paths -/

theorem matchRecallingChecked_eq (own : s.owner.lane = .own) (lost : Failure) (depth : Nat)
    (watch : Watch) (w : Validator) (known node value : Value) (t : Trace)
    (hl : watch.Located s.heap w.lane value t) :
    matchRecallingChecked s memory lost depth watch w known node value t
      = matchRecalling s memory depth w known node value t := by
  induction depth generalizing watch w known node value t with
  | zero => rfl
  | succ depth ih =>
    have keeps (w : Validator) (known node value : Value) (t : Trace) :
        (matchRecalling s memory depth w known node value t).2.SamePlace t :=
      matchRecalling_samePlace ..
    refine matchAsking_congr_at (watch.Located s.heap w.lane)
      (fun hl hgo hu => hl.along hgo.follow?_eq hu) (askRecalling_samePlace keeps w) (keeps w)
      (fun {predicate value t} hl => ?_) (ih _ _ _ _ _ _) hl
    exact askChecked_eq (s := s.after memory t) own keeps ih hl

/-- A validation by predicates that remember does the same if its paths are checked whenever a
predicate is called: at every call the path leads to the value that is handed over. -/
theorem validateRecallingChecked_eq (own : s.owner.lane = .own) (lost : Failure)
    (schema value : Value) {t : Trace} (ht : t.path = []) :
    s.validateRecallingChecked memory lost schema value t
      = s.validateRecalling memory schema value t := by
  have hstart : (Watch.start value).Located s.heap s.owner.lane value t :=
    own ▸ Watch.located_start ht
  unfold Setting.validateRecallingChecked Setting.validateRecalling Validation.deepening
  simp only [matchRecallingChecked_eq own lost _ _ _ _ _ _ _ hstart]

end

/-! ### An example -/

/-- A function that accepts what it has not been asked about. -/
def acceptOnce : Memory := fun calls _ given =>
  .answer (.bool (!calls.any fun call => Heap.empty.equal call.value given.value))

def onceSetting : Setting := ⟨⟨.empty, acceptOnce [], 1⟩, ⟨⟨.bool true⟩, true, .own⟩⟩

def isNew : Value :=
  .object none (.function (some "is_new") "function" ⟨["value"], 0, false, []⟩ 0 [])

/-- The third item is the first one again. -/
example : matchRecalling onceSetting acceptOnce 1 onceSetting.owner (.list [isNew]) (.list [isNew])
      (.list [.int 1, .int 2, .int 1]) .start
    = (.ok (some ⟨[.int 2], .int 1, isNew⟩), ⟨[], [],
        [⟨some "is_new", .int 1, 1, [.int 0]⟩, ⟨some "is_new", .int 2, 1, [.int 1]⟩,
          ⟨some "is_new", .int 1, 1, [.int 2]⟩]⟩) :=
  rfl

end Conform
