import Mathlib.Data.List.Forall2
/-!
# Sequences

Lists element by element, and computations that go on only while nothing fails.
-/

set_option autoImplicit false

namespace Conform

/-! ## The first of a list -/

theorem exists_first_of_not_all {α : Type} {p : α → Prop} (l : List α) (h : ¬ ∀ a ∈ l, p a) :
    ∃ (i : Nat) (a : α), l[i]? = some a ∧ ¬ p a ∧
      ∀ (j : Nat) (b : α), j < i → l[j]? = some b → p b := by
  induction l with
  | nil => exact absurd nofun h
  | cons a l ih =>
    by_cases ha : p a
    · have hrest : ¬ ∀ b ∈ l, p b := fun hl => h (List.forall_mem_cons.mpr ⟨ha, hl⟩)
      obtain ⟨i, b, hb, hnot, before⟩ := ih hrest
      refine ⟨i + 1, b, hb, hnot, fun j c hj hc => ?_⟩
      cases j with
      | zero =>
        cases hc
        exact ha
      | succ j => exact before j c (by omega) hc
    · exact ⟨0, a, rfl, ha, fun j b hj => by omega⟩

/-- What holds of an element if it holds of all before it holds of all elements. -/
theorem forall_mem_of_earlier {α : Type} {p : α → Prop} {l : List α}
    (h : ∀ (i : Nat) (a : α), l[i]? = some a →
      (∀ (j : Nat) (b : α), j < i → l[j]? = some b → p b) → p a) : ∀ a ∈ l, p a := by
  by_contra hall
  obtain ⟨i, a, here, hnot, before⟩ := exists_first_of_not_all l hall
  exact hnot (h i a here before)

/-! ## Lists in step -/

section

variable {α β : Type} {r : α → β → Prop} {l : List α} {l' : List β}

theorem forall₂_of_getElem? (length : l.length = l'.length)
    (each : ∀ (i : Nat) (a : α) (b : β), l[i]? = some a → l'[i]? = some b → r a b) :
    List.Forall₂ r l l' := by
  induction l generalizing l' with
  | nil =>
    cases l' with
    | nil => exact .nil
    | cons b l' => cases length
  | cons a l ih =>
    cases l' with
    | nil => cases length
    | cons b l' =>
      have hrest : List.Forall₂ r l l' :=
        ih (Nat.succ.inj length) fun i x y hx hy => each (i + 1) x y hx hy
      exact .cons (each 0 a b rfl rfl) hrest

theorem exists_getElem?_of_forall₂ (h : List.Forall₂ r l l') {i : Nat} {a : α}
    (ha : l[i]? = some a) : ∃ b, l'[i]? = some b ∧ r a b := by
  induction h generalizing i with
  | nil => cases ha
  | cons hab _ ih =>
    cases i with
    | zero =>
      cases ha
      exact ⟨_, rfl, hab⟩
    | succ i => exact ih ha

theorem forall₂_trans {γ : Type} {q : β → γ → Prop} {p : α → γ → Prop} {l'' : List γ}
    (h : List.Forall₂ r l l') (h' : List.Forall₂ q l' l'') (hp : ∀ a b c, r a b → q b c → p a c) :
    List.Forall₂ p l l'' := by
  induction h generalizing l'' with
  | nil =>
    cases h'
    exact .nil
  | cons hab _ ih =>
    cases h' with
    | cons hbc hrest => exact .cons (hp _ _ _ hab hbc) (ih hrest)

/-- What follows on the other side of elements of a list holds of all elements of the other list. -/
theorem forall_mem_of_forall₂ {p : β → Prop} (h : List.Forall₂ r l l')
    (hl : ∀ a ∈ l, ∀ b, r a b → p b) : ∀ b ∈ l', p b := by
  induction h with
  | nil => exact List.forall_mem_nil _
  | cons hab _ ih =>
    obtain ⟨ha, hrest⟩ := List.forall_mem_cons.mp hl
    exact List.forall_mem_cons.mpr ⟨ha _ hab, ih hrest⟩

theorem forall_mem_of_forall₂_right (h : List.Forall₂ r l l') : ∀ b ∈ l', ∃ a, r a b :=
  forall_mem_of_forall₂ h fun a _ _ hab => ⟨a, hab⟩

/-- What holds of elements in step holds of all on the one side if of all on the other. -/
theorem forall_mem_iff_of_forall₂ {p : α → Prop} {q : β → Prop}
    (h : List.Forall₂ (fun a b => p a ↔ q b) l l') : (∀ a ∈ l, p a) ↔ ∀ b ∈ l', q b := by
  induction h with
  | nil => simp
  | cons hab _ ih => rw [List.forall_mem_cons, List.forall_mem_cons, hab, ih]

theorem exists_mem_iff_of_forall₂ {p : α → Prop} {q : β → Prop}
    (h : List.Forall₂ (fun a b => p a ↔ q b) l l') : (∃ a ∈ l, p a) ↔ ∃ b ∈ l', q b := by
  induction h with
  | nil => simp
  | cons hab _ ih => simp only [List.mem_cons, exists_eq_or_imp, hab, ih]

/-- What holds of elements in step, each from some bound on, holds of all from one bound on. -/
theorem exists_bound_of_forall₂ {r : Nat → α → β → Prop}
    (mono : ∀ n m a b, n ≤ m → r n a b → r m a b)
    (h : List.Forall₂ (fun a b => ∃ n, r n a b) l l') : ∃ n, List.Forall₂ (r n) l l' := by
  induction h with
  | nil => exact ⟨0, .nil⟩
  | cons hab _ ih =>
    obtain ⟨n, hn⟩ := hab
    obtain ⟨m, hm⟩ := ih
    refine ⟨max n m, .cons (mono n _ _ _ (Nat.le_max_left n m) hn) (hm.imp fun a b hr => ?_)⟩
    exact mono m _ _ _ (Nat.le_max_right n m) hr

end

/-! ## Computations in order -/

section

variable {ε α β : Type} {x : Except ε α} {b : β}

theorem ok_bind (a : α) (f : α → Except ε β) : (Except.ok a >>= f) = f a := rfl

theorem exists_of_bind_eq_ok {f : α → Except ε β} (hb : x >>= f = .ok b) :
    ∃ a, x = .ok a ∧ f a = .ok b := by
  cases x with
  | error e => cases hb
  | ok a => exact ⟨a, rfl, hb⟩

theorem error_or_of_bind_eq_error {f : α → Except ε β} {e : ε} (he : x >>= f = .error e) :
    x = .error e ∨ ∃ a, x = .ok a ∧ f a = .error e := by
  cases x with
  | error e' => exact .inl (congrArg Except.error (Except.error.inj he))
  | ok a => exact .inr ⟨a, rfl, he⟩

theorem exists_of_map_eq_ok {f : α → β} (hb : x.map f = .ok b) : ∃ a, x = .ok a ∧ f a = b := by
  cases x with
  | error e => cases hb
  | ok a =>
    cases hb
    exact ⟨a, rfl, rfl⟩

end

section

variable {ε α β : Type} {f : α → Except ε β} {l : List α}

theorem exists_mapM_eq_ok (each : ∀ a ∈ l, ∃ b, f a = .ok b) : ∃ bs, l.mapM f = .ok bs := by
  induction l with
  | nil => exact ⟨[], rfl⟩
  | cons a l ih =>
    obtain ⟨⟨b, hb⟩, hl⟩ := List.forall_mem_cons.mp each
    obtain ⟨bs, hbs⟩ := ih hl
    exact ⟨b :: bs, by rw [List.mapM_cons, hb, hbs]; rfl⟩

/-- The first failure is that of the whole. -/
theorem mapM_eq_error {i : Nat} {a : α} {e : ε} (here : l[i]? = some a)
    (before : ∀ (j : Nat) (a' : α), j < i → l[j]? = some a' → ∃ b, f a' = .ok b)
    (fails : f a = .error e) : l.mapM f = .error e := by
  induction l generalizing i with
  | nil => cases here
  | cons first l ih =>
    rw [List.mapM_cons]
    cases i with
    | zero =>
      cases here
      rw [fails]
      rfl
    | succ i =>
      obtain ⟨b, hb⟩ := before 0 first (Nat.succ_pos i) rfl
      have hrest : l.mapM f = .error e :=
        ih here fun j a' hj ha' => before (j + 1) a' (by omega) ha'
      rw [hb, hrest]
      rfl

end

end Conform
