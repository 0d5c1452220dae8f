import Conform.Proofs.Validation.Depth
/-!
# Keeping the place

Everything a validation does, whether it passes, reports a mismatch or fails, ends at the place
where it started: the paths of both validators are as they were. And what comes of it, but for
the path in a report, does not depend on the place or on what has been called before.
-/

set_option autoImplicit false

namespace Conform

open Validation

namespace Correspondence

/-- Computations that end where they start; the second only says which results there may be. -/
def keepingPlace : Correspondence where
  Related r x _ := ∀ t, (x t).2.SamePlace t ∧ ∀ a, (x t).1 = .ok a → ∃ b, r a b
  Report := Eq
  pure {_ _ _ a b} h t := ⟨.refl t, fun a' ha => by cases ha; exact ⟨b, h⟩⟩
  fail e t := ⟨.refl t, fun a ha => by cases ha⟩
  bind {_ _ _ _ _ _ x y f g} hx hf t := by
    obtain ⟨hplace, hresult⟩ := hx t
    rcases hrun : x t with ⟨e | a, u⟩ <;> rw [hrun] at hplace hresult
    · rw [bind_of_error hrun]
      exact ⟨hplace, fun a ha => by cases ha⟩
    · rw [bind_of_ok hrun]
      obtain ⟨b, hr⟩ := hresult a rfl
      obtain ⟨hplace', hresult'⟩ := hf a b hr u
      exact ⟨hplace'.trans hplace, hresult'⟩
  descend lane step hx t := by
    obtain ⟨hplace, hresult⟩ := hx (t.push lane step)
    exact ⟨Trace.samePlace_pop hplace, hresult⟩
  apart hx t := by
    obtain ⟨hplace, hresult⟩ := hx { t with inner := [] }
    exact ⟨⟨hplace.path, rfl⟩, hresult⟩
  record _ _ _ t := ⟨⟨rfl, rfl⟩, fun a _ => ⟨a, rfl⟩⟩
  refuse _ _ _ t := ⟨.refl t, fun a _ => ⟨a, rfl⟩⟩

/-- Computations with the same outcome from any two traces, but for the mismatches they
report. -/
def sameOutcome : Correspondence where
  Related r x y := ∀ t u, (∃ e, (x t).1 = .error e ∧ (y u).1 = .error e) ∨
    ∃ a b, (x t).1 = .ok a ∧ (y u).1 = .ok b ∧ r a b
  Report _ _ := True
  pure h _ _ := .inr ⟨_, _, rfl, rfl, h⟩
  fail e _ _ := .inl ⟨e, rfl, rfl⟩
  bind {_ _ _ _ _ _ x y f g} hx hf t u := by
    rcases hrun : x t with ⟨e | a, t'⟩ <;> rcases hrun' : y u with ⟨e' | b, u'⟩ <;>
      have hxt := hx t u <;> rw [hrun, hrun'] at hxt
    · rw [bind_of_error hrun, bind_of_error hrun']
      rcases hxt with ⟨_, h, h'⟩ | ⟨_, _, h, _⟩
      · cases h
        cases h'
        exact .inl ⟨e, rfl, rfl⟩
      · cases h
    · rcases hxt with ⟨_, _, h'⟩ | ⟨_, _, h, _⟩
      · cases h'
      · cases h
    · rcases hxt with ⟨_, h, _⟩ | ⟨_, _, _, h', _⟩
      · cases h
      · cases h'
    · rw [bind_of_ok hrun, bind_of_ok hrun']
      rcases hxt with ⟨_, h, _⟩ | ⟨_, _, h, h', hr⟩
      · cases h
      · cases h
        cases h'
        exact hf a b hr t' u'
  descend lane step hx t u := hx (t.push lane step) (u.push lane step)
  apart hx t u := hx { t with inner := [] } { u with inner := [] }
  record _ _ _ _ _ := .inr ⟨_, _, rfl, rfl, rfl⟩
  refuse _ _ _ _ _ := .inr ⟨_, _, rfl, rfl, trivial⟩

end Correspondence

section

variable (s : Setting) (depth : Nat) (w : Validator)

theorem matchWithin_samePlace (known node value : Value) (t : Trace) :
    (matchWithin s depth w known node value t).2.SamePlace t :=
  (Correspondence.keepingPlace.matchWithin s depth w known node value t).1

theorem ask_samePlace (predicate value : Value) (t : Trace) :
    (s.ask (matchWithin s depth) w predicate value t).2.SamePlace t :=
  (Correspondence.keepingPlace.ask (s := s) (Correspondence.keepingPlace.matchWithin s depth)
    w predicate value t).1

/-- What a predicate answers does not depend on where it is asked. -/
theorem ask_result (predicate value : Value) (t u : Trace) :
    (s.ask (matchWithin s depth) w predicate value t).1
      = (s.ask (matchWithin s depth) w predicate value u).1 := by
  rcases Correspondence.sameOutcome.ask (s := s)
    (Correspondence.sameOutcome.matchWithin s depth) w predicate value t u with
    ⟨e, h, h'⟩ | ⟨a, b, h, h', rfl⟩
  · rw [h, h']
  · rw [h, h']

end

theorem Setting.validate_samePlace (s : Setting) (schema value : Value) (t : Trace) :
    (s.validate schema value t).2.SamePlace t := by
  rcases deepening_cases (fun depth => matchWithin s depth s.owner schema schema value)
    (s.depthFor schema value) t with ⟨d, hd⟩ | h
  · rw [Setting.validate, hd]
    exact matchWithin_samePlace s d s.owner schema schema value t
  · rw [Setting.validate, h]
    exact .refl t

end Conform
