import Conform.Validation
import Mathlib.Data.List.Forall2
/-!
# Computations of a validation

What a computation gives is read off from its parts: a sequence goes on with the result of its
first part or fails with it, and a loop that looks for a first answer gives the outcome of the
first element that does not pass. A computation that keeps its place leaves both paths as they
were, whatever comes of it.
-/

set_option autoImplicit false

namespace Conform

/-- Traces with the same paths; what has been called so far may differ. -/
structure Trace.SamePlace (t u : Trace) : Prop where
  path : t.path = u.path
  inner : t.inner = u.inner

namespace Trace.SamePlace

theorem refl (t : Trace) : t.SamePlace t := ⟨rfl, rfl⟩

theorem trans {t u v : Trace} (h : t.SamePlace u) (h' : u.SamePlace v) : t.SamePlace v :=
  ⟨h.path.trans h'.path, h.inner.trans h'.inner⟩

theorem pathIn {t u : Trace} (h : t.SamePlace u) (lane : Lane) : t.pathIn lane = u.pathIn lane := by
  cases lane
  · exact h.path
  · exact h.inner

end Trace.SamePlace

namespace Trace

theorem pathIn_push (t : Trace) (lane : Lane) (step : Value) :
    (t.push lane step).pathIn lane = t.pathIn lane ++ [step] := by
  cases lane <;> rfl

/-- Coming back from one step further down leads to where the step started. -/
theorem samePlace_pop {t u : Trace} {lane : Lane} {step : Value}
    (h : u.SamePlace (t.push lane step)) : (u.pop lane).SamePlace t := by
  cases lane
  · refine ⟨?_, h.inner⟩
    show u.path.dropLast = t.path
    rw [h.path]
    exact List.dropLast_concat
  · refine ⟨h.path, ?_⟩
    show u.inner.dropLast = t.inner
    rw [h.inner]
    exact List.dropLast_concat

end Trace

namespace Validation

variable {α β : Type}

/-! ## Sequences -/

@[simp] theorem pure_apply (a : α) (t : Trace) : (pure a : Validation α) t = (.ok a, t) := rfl

@[simp] theorem fail_apply (e : Failure) (t : Trace) :
    (fail e : Validation α) t = (.error e, t) := rfl

@[simp] theorem lift_ok (a : α) : (lift (.ok a) : Validation α) = pure a := rfl

@[simp] theorem lift_error (e : Failure) : (lift (.error e) : Validation α) = fail e := rfl

@[simp] theorem pure_bind (a : α) (f : α → Validation β) : (pure a >>= f) = f a := rfl

@[simp] theorem fail_bind (e : Failure) (f : α → Validation β) : (fail e >>= f) = fail e := rfl

theorem bind_of_ok {x : Validation α} {t t' : Trace} {a : α} (h : x t = (.ok a, t'))
    (f : α → Validation β) : (x >>= f) t = f a t' := by
  show Validation.bind x f t = f a t'
  rw [Validation.bind, h]

theorem bind_of_error {x : Validation α} {t t' : Trace} {e : Failure} (h : x t = (.error e, t'))
    (f : α → Validation β) : (x >>= f) t = (.error e, t') := by
  show Validation.bind x f t = (.error e, t')
  rw [Validation.bind, h]

theorem bind_pure (x : Validation α) : x >>= pure = x := by
  funext t
  rcases h : x t with ⟨e | a, u⟩
  · exact bind_of_error h pure
  · exact bind_of_ok h pure

theorem bind_assoc {γ : Type} (x : Validation α) (f : α → Validation β) (g : β → Validation γ) :
    (x >>= f) >>= g = x >>= fun a => f a >>= g := by
  funext t
  rcases h : x t with ⟨e | a, u⟩
  · rw [bind_of_error h, bind_of_error (bind_of_error h f)]
  · rw [bind_of_ok h]
    show Validation.bind (x >>= f) g t = Validation.bind (f a) g u
    rw [Validation.bind, bind_of_ok h, Validation.bind]

/-- The result of a step further down is that of the step itself. -/
theorem descend_result (lane : Lane) (step : Value) (x : Validation α) (t : Trace) :
    (descend lane step x t).1 = (x (t.push lane step)).1 := rfl

/-! ## Loops -/

/-- What a loop gives that looks for a first answer, where `P` says what comes of each element:
nothing if all elements pass, else the outcome of the first that does not. -/
inductive FirstOutcome (P : α → Except Failure (Option β) → Prop) (l : List α) :
    Except Failure (Option β) → Prop
  | passed (all : ∀ a ∈ l, P a (.ok none)) : FirstOutcome P l (.ok none)
  | stopped {i : Nat} {a : α} {out : Except Failure (Option β)} (here : l[i]? = some a)
      (before : ∀ j b, j < i → l[j]? = some b → P b (.ok none)) (outcome : P a out)
      (halts : out ≠ .ok none) : FirstOutcome P l out

theorem FirstOutcome.cons {P : α → Except Failure (Option β) → Prop} {a : α} {l : List α}
    {out : Except Failure (Option β)} (ha : P a (.ok none)) (h : FirstOutcome P l out) :
    FirstOutcome P (a :: l) out := by
  cases h with
  | passed all =>
    refine .passed fun b hb => ?_
    rcases List.mem_cons.mp hb with rfl | hb
    · exact ha
    · exact all b hb
  | @stopped i b _ here before outcome halts =>
    refine .stopped (i := i + 1) (a := b) here (fun j c hj hc => ?_) outcome halts
    cases j with
    | zero => cases hc; exact ha
    | succ j => exact before j c (by omega) hc

theorem findSomeM?_of_forall₂ {α α' β : Type} {f : α → Validation (Option β)}
    {g : α' → Validation (Option β)} {l : List α} {l' : List α'}
    (h : List.Forall₂ (fun a b => f a = g b) l l') : l.findSomeM? f = l'.findSomeM? g := by
  induction h with
  | nil => rfl
  | cons hab _ ih => rw [List.findSomeM?_cons, List.findSomeM?_cons, hab, ih]

theorem findSomeM?_outcome {f : α → Validation (Option β)}
    (keeps : ∀ a t, (f a t).2.SamePlace t) {P : α → Except Failure (Option β) → Prop}
    (l : List α) (t : Trace) (h : ∀ a ∈ l, ∀ u : Trace, u.SamePlace t → P a (f a u).1) :
    FirstOutcome P l (l.findSomeM? f t).1 := by
  induction l generalizing t with
  | nil => exact .passed fun a ha => by cases ha
  | cons a l ih =>
    have ha := h a (List.mem_cons_self ..) t (.refl t)
    have hk := keeps a t
    rw [List.findSomeM?]
    rcases hrun : f a t with ⟨_ | _ | b, u⟩ <;> rw [hrun] at ha hk
    · rw [bind_of_error hrun]
      exact .stopped (i := 0) rfl (fun j b hj => by omega) ha (by simp)
    · rw [bind_of_ok hrun]
      exact (ih u fun b hb v hv => h b (List.mem_cons_of_mem a hb) v (hv.trans hk)).cons ha
    · rw [bind_of_ok hrun]
      exact .stopped (i := 0) rfl (fun j b hj => by omega) ha (by simp)

end Validation

end Conform
