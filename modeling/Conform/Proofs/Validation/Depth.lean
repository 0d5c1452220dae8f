import Conform.Proofs.Validation.Correspondence
/-!
# Depth

A run that is not cut short does not change when it may go deeper. So a validation, which goes
deeper until its run ends, gives what the run gives at any depth that does not cut it short, and
it is endless only where every depth does.
-/

set_option autoImplicit false

namespace Conform

namespace Validation

variable {α β : Type}

/-- The second run goes at least as far as the first: unless the first is cut short, both give
related results with the same trace. -/
inductive GoesOn (r : α → β → Prop) :
    Except Failure α × Trace → Except Failure β × Trace → Prop
  | cut (u : Trace) (out : Except Failure β × Trace) : GoesOn r (.error .endless, u) out
  | failed (e : Failure) (u : Trace) : GoesOn r (.error e, u) (.error e, u)
  | done {a : α} {b : β} (u : Trace) (h : r a b) : GoesOn r (.ok a, u) (.ok b, u)

theorem GoesOn.mapTrace {r : α → β → Prop} {out : Except Failure α × Trace}
    {out' : Except Failure β × Trace} (f : Trace → Trace) (h : GoesOn r out out') :
    GoesOn r (out.1, f out.2) (out'.1, f out'.2) := by
  cases h with
  | cut u out' => exact .cut (f u) _
  | failed e u => exact .failed e (f u)
  | done u h => exact .done (f u) h

theorem GoesOn.eq {out out' : Except Failure α × Trace} (h : GoesOn Eq out out')
    (hne : out.1 ≠ .error .endless) : out' = out := by
  cases h with
  | cut u out' => exact absurd rfl hne
  | failed e u => rfl
  | done u h => rw [h]

end Validation

open Validation

namespace Correspondence

/-- Computations of which the second goes at least as far as the first. -/
def goingOn : Correspondence where
  Related r x y := ∀ t, GoesOn r (x t) (y t)
  Report := Eq
  pure h t := .done t h
  fail e t := .failed e t
  bind {_ _ _ _ _ _ x y f g} hx hf t := by
    have hxt := hx t
    rcases hrun : x t with ⟨e | a, u⟩ <;> rcases hrun' : y t with ⟨e' | b, u'⟩ <;>
      rw [hrun, hrun'] at hxt
    · rw [bind_of_error hrun, bind_of_error hrun']
      cases hxt with
      | cut => exact .cut u _
      | failed => exact .failed e u
    · rw [bind_of_error hrun]
      cases hxt with
      | cut => exact .cut u _
    · cases hxt
    · rw [bind_of_ok hrun, bind_of_ok hrun']
      cases hxt with
      | done _ h => exact hf a b h u
  descend lane step hx t := (hx (t.push lane step)).mapTrace fun u => u.pop lane
  apart hx t := (hx { t with inner := [] }).mapTrace fun u => { u with inner := t.inner }
  record _ _ _ _ := .done _ rfl
  refuse _ _ _ t := .done t rfl

theorem eq_of_outcome_goingOn {found found' : Option Mismatch}
    (h : goingOn.Outcome found found') : found = found' := by
  cases h with
  | some h => exact congrArg some h
  | none => rfl

end Correspondence

theorem GoesOn.ofOutcome {out out' : Except Failure (Option Mismatch) × Trace}
    (h : GoesOn Correspondence.goingOn.Outcome out out') : GoesOn Eq out out' := by
  cases h with
  | cut u out' => exact .cut u out'
  | failed e u => exact .failed e u
  | done u h => exact .done u (Correspondence.eq_of_outcome_goingOn h)

section

variable (s : Setting)

theorem goesOn_matchWithin_succ (depth : Nat) (w : Validator) (known node value : Value) :
    Correspondence.goingOn.Related Correspondence.goingOn.Outcome
      (matchWithin s depth w known node value) (matchWithin s (depth + 1) w known node value) := by
  induction depth generalizing w known node value with
  | zero => exact fun t => .cut t _
  | succ depth ih => exact Correspondence.goingOn.matchNode ih w known node value

variable {s} {d d' : Nat} {w : Validator}

theorem matchWithin_of_le (hd : d ≤ d') {known node value : Value} {t : Trace}
    (h : (matchWithin s d w known node value t).1 ≠ .error .endless) :
    matchWithin s d' w known node value t = matchWithin s d w known node value t := by
  induction hd with
  | refl => rfl
  | @step m _ ih =>
    have hs := (GoesOn.ofOutcome (goesOn_matchWithin_succ s m w known node value t)).eq
    exact (hs (ih ▸ h)).trans ih

theorem ask_of_le (hd : d ≤ d') {predicate value : Value} {t : Trace}
    (h : (s.ask (matchWithin s d) w predicate value t).1 ≠ .error .endless) :
    s.ask (matchWithin s d') w predicate value t
      = s.ask (matchWithin s d) w predicate value t := by
  induction hd with
  | refl => rfl
  | @step m _ ih =>
    have hs := (Correspondence.goingOn.ask (s := s) (goesOn_matchWithin_succ s m) w
      predicate value t).eq
    exact (hs (ih ▸ h)).trans ih

end

/-! ## Going deeper -/

namespace Search

variable {α : Type} {search : Search α} {n : Nat} {a : α}

theorem firstFrom_of_eq_some (h : search.attempt n = some a) : search.firstFrom n = some a := by
  rw [firstFrom, h]

/-- What is found is what some attempt gives. -/
theorem exists_attempt (h : search.firstFrom n = some a) : ∃ m, search.attempt m = some a := by
  refine firstFrom.partial_correctness search (fun _ a => ∃ m, search.attempt m = some a) ?_ n a h
  intro find ih m r hr
  split at hr
  · next b hb => exact ⟨m, hr ▸ hb⟩
  · exact ih (m + 1) r hr

/-- An answer that all attempts after it repeat is found, wherever the search starts. -/
theorem firstFrom_eq_some {m : Nat} (hrepeat : ∀ k b, search.attempt k = some b → b = a)
    (hlater : ∀ k, m ≤ k → search.attempt k = some a) (n : Nat) :
    search.firstFrom n = some a := by
  induction hk : m - n generalizing n with
  | zero => exact firstFrom_of_eq_some (hlater n (by omega))
  | succ k ih =>
    rw [firstFrom]
    split
    · next b hb => rw [hrepeat n b hb]
    · exact ih (n + 1) (by omega)

end Search

namespace Validation

variable {α : Type}

theorem ended?_of_ne {out : Except Failure α × Trace} (h : out.1 ≠ .error .endless) :
    ended? out = some out := by
  unfold ended?
  split
  · next hout => exact absurd hout h
  · rfl

theorem eq_of_ended? {out out' : Except Failure α × Trace} (h : ended? out = some out') :
    out' = out ∧ out.1 ≠ .error .endless := by
  unfold ended? at h
  split at h
  · cases h
  · next hne =>
    cases h
    exact ⟨rfl, hne⟩

/-- Going deeper gives what some depth gives, or does not end. -/
theorem deepening_cases (run : Nat → Validation α) (depth : Nat) (t : Trace) :
    (∃ d, deepening run depth t = run d t) ∨ deepening run depth t = (.error .endless, t) := by
  unfold deepening
  cases h : (Search.mk fun d => ended? (run d t)).firstFrom depth with
  | none => exact .inr rfl
  | some out =>
    obtain ⟨d, hd⟩ := Search.exists_attempt h
    exact .inl ⟨d, (eq_of_ended? hd).1⟩

theorem deepening_eq (run : Nat → Validation α)
    (hgo : ∀ d d' t, d ≤ d' → (run d t).1 ≠ .error .endless → run d' t = run d t)
    {d : Nat} {t : Trace} (h : (run d t).1 ≠ .error .endless) (depth : Nat) :
    deepening run depth t = run d t := by
  have hfirst : (Search.mk fun d => ended? (run d t)).firstFrom depth = some (run d t) := by
    refine Search.firstFrom_eq_some (m := d) (fun k b hb => ?_) (fun k hk => ?_) depth
    · obtain ⟨rfl, hk⟩ := eq_of_ended? hb
      rcases Nat.le_total d k with hdk | hkd
      · exact hgo d k t hdk h
      · exact (hgo k d t hkd hk).symm
    · show ended? (run k t) = some (run d t)
      rw [hgo d k t hk h]
      exact ended?_of_ne h
  rw [deepening, hfirst, Option.getD_some]

end Validation

/-- A validation gives what matching gives at any depth that does not cut it short. -/
theorem Setting.validate_eq {s : Setting} {d : Nat} {schema value : Value} {t : Trace}
    (h : (matchWithin s d s.owner schema schema value t).1 ≠ .error .endless) :
    s.validate schema value t = matchWithin s d s.owner schema schema value t :=
  deepening_eq (fun d => matchWithin s d s.owner schema schema value)
    (fun _ _ _ hd hne => matchWithin_of_le hd hne) h _

/-- A validation that every depth cuts short is endless. -/
theorem Setting.validate_endless {s : Setting} {schema value : Value} {t : Trace}
    (h : ∀ d, (matchWithin s d s.owner schema schema value t).1 = .error .endless) :
    (s.validate schema value t).1 = .error .endless := by
  unfold Setting.validate
  rcases deepening_cases (fun d => matchWithin s d s.owner schema schema value)
    (s.depthFor schema value) t with ⟨d, hd⟩ | hd
  · rw [hd]
    exact h d
  · rw [hd]

end Conform
