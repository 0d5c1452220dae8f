import Conform.Proofs.Matching.Verdict
/-!
# Schemas that cannot be told apart

A schema follows another if some more depth makes it give whatever the other gives; two schemas
that follow each other pass, refuse and fail on the same values. Changes that keep this at one
place keep it at any number of places and at any depth.
-/

set_option autoImplicit false

namespace Conform

open Validation

namespace Validation

variable {α β γ : Type}

/-- Unless the first is cut short, both give related results or fail in the same way. -/
inductive Reaches (r : α → β → Prop) : Except Failure α → Except Failure β → Prop
  | cut (out : Except Failure β) : Reaches r (.error .endless) out
  | failed (e : Failure) : Reaches r (.error e) (.error e)
  | done {a : α} {b : β} (h : r a b) : Reaches r (.ok a) (.ok b)

theorem Reaches.trans {r : α → β → Prop} {q : β → γ → Prop} {p : α → γ → Prop}
    {out : Except Failure α} {out' : Except Failure β} {out'' : Except Failure γ}
    (hp : ∀ a b c, r a b → q b c → p a c) (h : Reaches r out out') (h' : Reaches q out' out'') :
    Reaches p out out'' := by
  cases h with
  | cut => exact .cut out''
  | failed e =>
    cases h' with
    | cut => exact .cut out''
    | failed => exact .failed e
  | done hab =>
    cases h' with
    | done hbc => exact .done (hp _ _ _ hab hbc)

end Validation

namespace Correspondence

/-- Computations of which the second gives the outcome of the first, from any two traces, unless
the first is cut short; what they report may differ. -/
def reaching : Correspondence where
  Related r x y := ∀ t u, Reaches r (x t).1 (y u).1
  Report _ _ := True
  pure h _ _ := .done h
  fail e _ _ := .failed e
  bind {_ _ _ _ _ _ x y f g} hx hf t u := by
    have hxt := hx t u
    rcases hrun : x t with ⟨e | a, t'⟩ <;> rcases hrun' : y u with ⟨e' | b, u'⟩ <;>
      rw [hrun, hrun'] at hxt
    · rw [bind_of_error hrun, bind_of_error hrun']
      cases hxt with
      | cut => exact .cut _
      | failed => exact .failed e
    · rw [bind_of_error hrun]
      cases hxt with
      | cut => exact .cut _
    · cases hxt
    · rw [bind_of_ok hrun, bind_of_ok hrun']
      cases hxt with
      | done h => exact hf a b h t' u'
  descend lane step hx t u := hx (t.push lane step) (u.push lane step)
  apart hx t u := hx { t with inner := [] } { u with inner := [] }
  record _ _ _ _ _ := .done rfl
  refuse _ _ _ _ _ := .done trivial

theorem reaching_trans {x y z : Validation (Option Mismatch)}
    (h : reaching.Related reaching.Outcome x y) (h' : reaching.Related reaching.Outcome y z) :
    reaching.Related reaching.Outcome x z := by
  intro t u
  refine (h t t).trans (fun a b c hab hbc => ?_) (h' t u)
  cases hab with
  | none =>
    cases hbc with
    | none => exact .none
  | some =>
    cases hbc with
    | some => exact .some trivial

end Correspondence

open Correspondence

section

variable {s : Setting} {w : Validator}

theorem reaching_matchWithin_of_le {d d' : Nat} (hd : d ≤ d') (node value : Value) :
    reaching.Related reaching.Outcome (matchWithin s d w node node value)
      (matchWithin s d' w node node value) := by
  induction hd with
  | refl => exact reaching.matchWithin s d w node node value
  | @step m _ ih =>
    have hstep (n : Nat) (w : Validator) (known node value : Value) :
        reaching.Related reaching.Outcome (matchWithin s n w known node value)
          (matchWithin s (n + 1) w known node value) := by
      induction n generalizing w known node value with
      | zero => exact fun _ _ => .cut _
      | succ n ih => exact reaching.matchNode ih w known node value
    exact reaching_trans ih (hstep m w node node value)

/-- With some more depth the second schema gives whatever the first gives. -/
def Follows (s : Setting) (w : Validator) (schema schema' : Value) : Prop :=
  ∃ more, ∀ d value, reaching.Related reaching.Outcome (matchWithin s d w schema schema value)
    (matchWithin s (d + more) w schema' schema' value)

theorem Follows.refl (schema : Value) : Follows s w schema schema :=
  ⟨0, fun d value => reaching.matchWithin s d w schema schema value⟩

/-- If matching one kind gives what matching another gives, with parts matched at any depth and at
another that is so much greater, one schema follows the other. -/
theorem follows_of_matchKind {schema schema' : Value} {k k' : Kind} (more : Nat)
    (hk : s.heap.kind? schema = some k) (hk' : s.heap.kind? schema' = some k')
    (h : ∀ (d d' : Nat) (value : Value) (asked asked' : Validation Bool), d + more ≤ d' →
      reaching.Related reaching.Outcome
        (matchKind s w schema value asked (fun part x => matchWithin s d w part part x) k)
        (matchKind s w schema' value asked' (fun part x => matchWithin s d' w part part x) k')) :
    Follows s w schema schema' := by
  refine ⟨more + 3, fun d value => ?_⟩
  obtain ⟨m, -, hm, hrun⟩ := matchWithin_of_kind (w := w) hk d value
  obtain ⟨m', hm', -, hrun'⟩ := matchWithin_of_kind (w := w) hk' (d + more + 1) value
  have hdeeper := reaching_matchWithin_of_le (s := s) (w := w) (Nat.le_add_right d 2) schema value
  have hkinds := h (m + 1) (m' + 1) value (s.ask (matchWithin s m) w (s.heap.resolve schema) value)
    (s.ask (matchWithin s m') w (s.heap.resolve schema') value) (by omega)
  rw [← hrun, ← hrun'] at hkinds
  exact reaching_trans hdeeper hkinds

theorem follows_pattern {schema schema' : Value} {p p' : Pattern}
    (hk : s.heap.kind? schema = some (.pattern p)) (hk' : s.heap.kind? schema' = some (.pattern p'))
    (hsearch : ∀ text, p.search text = p'.search text) : Follows s w schema schema' := by
  refine follows_of_matchKind 0 hk hk' fun d d' value asked asked' _ => ?_
  rw [matchKind, matchKind, ← funext hsearch]
  exact reaching.verdict (fun _ _ => .done trivial) ((value.text?.map p.search).getD false)

/-- Containers follow each other if their parts do. -/
theorem follows_of_related {schema schema' : Value} {k k' : Kind}
    (hk : s.heap.kind? schema = some k) (hk' : s.heap.kind? schema' = some k')
    (h : k.Related (Follows s w) k') : Follows s w schema schema' := by
  obtain ⟨more, hmore⟩ := h.exists_bound fun n m part part' hnm hpart d value =>
    reaching_trans (hpart d value) (reaching_matchWithin_of_le (by omega) part' value)
  refine follows_of_matchKind more hk hk' fun d d' value asked asked' hd => ?_
  refine reaching.matchContainer (fun _ _ => .done trivial) (hmore.imp fun part part' hpart x => ?_)
  exact reaching_trans (hpart d x) (reaching_matchWithin_of_le hd part' x)

/-- Schemas that follow each other. -/
structure Alike (s : Setting) (w : Validator) (schema schema' : Value) : Prop where
  forth : Follows s w schema schema'
  back : Follows s w schema' schema

/-- Changes that cannot be told apart at one place cannot be told apart at many, at any depth. -/
theorem alike_of_congruent {change : Value → Value → Prop}
    (hchange : ∀ v v', change v v' → Alike s w v v') {schema schema' : Value}
    (hc : Congruent s.heap change schema schema') : Alike s w schema schema' := by
  refine hc.le (fun v => ⟨.refl v, .refl v⟩) hchange fun v v' k k' hk hk' h => ⟨?_, ?_⟩
  · exact follows_of_related hk hk' (h.imp fun _ _ halike => halike.forth)
  · exact follows_of_related hk' hk (h.symm.imp fun _ _ halike => halike.back)

end

/-! ## Validations and tests -/

/-- A validation gives what it reaches at some depth, unless it is endless. -/
theorem reaches_validate {s : Setting} {schema schema' : Value}
    (h : Follows s s.owner schema schema') (value : Value) (t u : Trace) :
    Reaches reaching.Outcome (s.validate schema value t).1 (s.validate schema' value u).1 := by
  obtain ⟨more, hmore⟩ := h
  by_cases hends : ∃ d, (matchWithin s d s.owner schema schema value t).1 ≠ .error .endless
  · obtain ⟨d, hd⟩ := hends
    have hreach := hmore d value t u
    have hd' : (matchWithin s (d + more) s.owner schema' schema' value u).1
        ≠ .error .endless := by
      intro hcut
      rw [hcut] at hreach
      generalize (matchWithin s d s.owner schema schema value t).1 = out at hd hreach
      cases hreach with
      | cut => exact hd rfl
      | failed => exact hd rfl
    rw [Setting.validate_eq hd, Setting.validate_eq hd']
    exact hreach
  · have hcut (d : Nat) : (matchWithin s d s.owner schema schema value t).1 = .error .endless :=
      Classical.not_not.mp fun hd => hends ⟨d, hd⟩
    rw [Setting.validate_endless hcut]
    exact .cut _

theorem Validation.Reaches.passed_eq {out out' : Except Failure (Option Mismatch)}
    (h : Reaches reaching.Outcome out out') (h' : Reaches reaching.Outcome out' out) :
    out.map Option.isNone = out'.map Option.isNone := by
  cases h with
  | cut =>
    cases h' with
    | cut => rfl
    | failed => rfl
  | failed => rfl
  | done hr =>
    cases hr with
    | none => rfl
    | some => rfl

theorem World.test_result (world : World) (schema value options : Value) (t : Trace) :
    (world.test schema value options t).1
      = (world.validate schema value options t).1.map Option.isNone := by
  unfold World.test
  rcases hrun : world.validate schema value options t with ⟨e | found, u⟩
  · rw [bind_of_error hrun]
    rfl
  · rw [bind_of_ok hrun]
    rfl

/-- A test gives what matching gives at a depth that does not cut it short. -/
theorem World.test_of_matchWithin {world : World} {schema value options : Value} {s : Setting}
    (hs : world.setting options = .ok s) {d : Nat} {t : Trace} {found : Option Mismatch}
    (hrun : (matchWithin s d s.owner schema schema value t).1 = .ok found) :
    (world.test schema value options t).1 = .ok found.isNone := by
  have hends : (matchWithin s d s.owner schema schema value t).1 ≠ .error .endless := by simp [hrun]
  rw [World.test_result, World.validate, hs, lift_ok, pure_bind, Setting.validate_eq hends, hrun]
  rfl

/-- Schemas that are alike under the options of a caller pass the same tests, and fail with the
same failures. -/
theorem test_eq_of_alike {world : World} {schema schema' options : Value}
    (h : ∀ s, world.setting options = .ok s → Alike s s.owner schema schema') (value : Value)
    (t u : Trace) :
    (world.test schema value options t).1 = (world.test schema' value options u).1 := by
  rw [World.test_result, World.test_result, World.validate, World.validate]
  cases hs : world.setting options with
  | error e => rfl
  | ok s =>
    obtain ⟨hforth, hback⟩ := h s hs
    exact (reaches_validate hforth value t u).passed_eq (reaches_validate hback value u t)

end Conform
