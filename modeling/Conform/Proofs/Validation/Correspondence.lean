import Conform.Proofs.Validation.Kinds
/-!
# Correspondences between computations

A correspondence relates computations to computations, once a relation between their results is
given, and is kept by everything that a validation is put together from. Matching then keeps it
as a whole: if two matchers correspond, so does what matching does with the one and with the
other. One induction over schemas thus serves every law of this form.
-/

set_option autoImplicit false

namespace Conform

/-- A family of relations between computations that every step of a validation keeps. -/
structure Correspondence where
  /-- Computations whose results are in a relation where both have one. -/
  Related : {α β : Type} → (α → β → Prop) → Validation α → Validation β → Prop
  /-- The mismatches that may be reported for one another. -/
  Report : Mismatch → Mismatch → Prop
  pure : ∀ {α β : Type} {r : α → β → Prop} {a : α} {b : β}, r a b → Related r (pure a) (pure b)
  fail : ∀ {α β : Type} {r : α → β → Prop} (e : Failure),
    Related r (Validation.fail e) (Validation.fail e)
  bind : ∀ {α β γ δ : Type} {r : α → β → Prop} {q : γ → δ → Prop} {x : Validation α}
    {y : Validation β} {f : α → Validation γ} {g : β → Validation δ}, Related r x y →
    (∀ a b, r a b → Related q (f a) (g b)) → Related q (x >>= f) (y >>= g)
  descend : ∀ {α β : Type} {r : α → β → Prop} {x : Validation α} {y : Validation β}
    (lane : Lane) (step : Value), Related r x y →
    Related r (Validation.descend lane step x) (Validation.descend lane step y)
  apart : ∀ {α β : Type} {r : α → β → Prop} {x : Validation α} {y : Validation β},
    Related r x y → Related r (Validation.apart x) (Validation.apart y)
  record : ∀ (name : Option String) (value : Value) (arguments : Nat),
    Related Eq (Validation.record name value arguments) (Validation.record name value arguments)
  refuse : ∀ (w : Validator) (known value : Value),
    Related Report (w.refuse known value) (w.refuse known value)

namespace Correspondence

variable (C : Correspondence)

/-- Outcomes of matching that may stand for one another: both pass, or both report. -/
def Outcome : Option Mismatch → Option Mismatch → Prop := Option.Rel C.Report

theorem lift {α : Type} (result : Except Failure α) :
    C.Related Eq (Validation.lift result) (Validation.lift result) := by
  cases result with
  | ok a => exact C.pure rfl
  | error e => exact C.fail e

section

variable {w : Validator} {known known' value : Value}
  (hrefuse : C.Related C.Report (w.refuse known value) (w.refuse known' value))
include hrefuse

theorem refused :
    C.Related C.Outcome (some <$> w.refuse known value) (some <$> w.refuse known' value) :=
  C.bind hrefuse fun _ _ h => C.pure (.some h)

theorem verdict (passed : Bool) :
    C.Related C.Outcome (w.verdict known value passed) (w.verdict known' value passed) := by
  cases passed with
  | true => exact C.pure .none
  | false => exact C.refused hrefuse

end

/-- A loop over elements in step. -/
theorem findSome₂ {α β γ δ : Type} {r : γ → δ → Prop} {f : α → Validation (Option γ)}
    {g : β → Validation (Option δ)} {l : List α} {l' : List β}
    (h : List.Forall₂ (fun a b => C.Related (Option.Rel r) (f a) (g b)) l l') :
    C.Related (Option.Rel r) (l.findSomeM? f) (l'.findSomeM? g) := by
  induction h with
  | nil => exact C.pure .none
  | cons hab _ ih =>
    rw [List.findSomeM?_cons, List.findSomeM?_cons]
    refine C.bind hab fun found found' hf => ?_
    cases hf with
    | some hr => exact C.pure (.some hr)
    | none => exact ih

theorem findSome {α β γ : Type} {r : β → γ → Prop} {f : α → Validation (Option β)}
    {g : α → Validation (Option γ)} (l : List α)
    (h : ∀ a ∈ l, C.Related (Option.Rel r) (f a) (g a)) :
    C.Related (Option.Rel r) (l.findSomeM? f) (l.findSomeM? g) :=
  C.findSome₂ (List.forall₂_same.mpr h)

/-! ## Kinds of schemas -/

section

variable {s : Setting} {w : Validator} {sub sub' : PartMatcher}

theorem matchPairing {pairs pairs' : List (Value × Value)}
    (h : List.Forall₂ (SameItem fun part part' =>
      ∀ x, C.Related C.Outcome (sub part x) (sub' part' x)) pairs pairs') :
    C.Related C.Outcome (matchPairing w sub pairs) (Conform.matchPairing w sub' pairs') := by
  refine C.findSome₂ ?_
  generalize 0 = i
  induction h generalizing i with
  | nil => exact .nil
  | @cons pair pair' _ _ hpair _ ih =>
    refine .cons (C.descend w.lane (.int i) ?_) (ih (i + 1))
    have hrelated := hpair.1 pair.2
    rw [hpair.2] at hrelated ⊢
    exact hrelated

theorem tryMember {value member member' : Value}
    (h : C.Related C.Outcome (sub member value) (sub' member' value)) :
    C.Related (Option.Rel Eq) (tryMember sub value member)
      (Conform.tryMember sub' value member') := by
  refine C.bind h fun found found' hf => ?_
  cases hf with
  | some _ => exact C.pure .none
  | none => exact C.pure (.some rfl)

theorem visitEntries {value : Value} {entries entries' : List (Value × Value)}
    (h : List.Forall₂ (Kind.SameName fun part part' =>
      ∀ x, C.Related C.Outcome (sub part x) (sub' part' x)) entries entries') :
    C.Related C.Outcome (visitEntries s w sub value entries)
      (Conform.visitEntries s w sub' value entries') := by
  refine C.findSome₂ (h.imp fun e e' he => ?_)
  rw [← he.1]
  refine C.bind (C.lift _) fun read _ hr => ?_
  exact hr ▸ C.descend w.lane e.1 (he.2 read)

theorem matchObject {known known' value : Value} {entries entries' : List (Value × Value)}
    (hrefuse : C.Related C.Report (w.refuse known value) (w.refuse known' value))
    (h : List.Forall₂ (Kind.SameName fun part part' =>
      ∀ x, C.Related C.Outcome (sub part x) (sub' part' x)) entries entries') :
    C.Related C.Outcome (matchObject s w known value (declare w sub entries))
      (Conform.matchObject s w known' value (declare w sub' entries')) := by
  have hdeclared (name : Value) : (entries.any fun e => s.heap.equal name e.1)
      = entries'.any fun e => s.heap.equal name e.1 := by
    induction h with
    | nil => rfl
    | cons he _ ih => rw [List.any_cons, List.any_cons, he.1, ih]
  rw [matchObject_declare, matchObject_declare, h.length_eq]
  split
  · exact C.refused hrefuse
  · split
    · exact C.refused hrefuse
    · refine C.bind (C.visitEntries h) fun found found' hf => ?_
      cases hf with
      | some hr => exact C.pure (.some hr)
      | none =>
        simp only [hdeclared]
        split
        · exact C.refused hrefuse
        · exact C.pure .none

/-- Containers of one shape, which may be reported as different schemas. -/
theorem matchContainer {known known' value : Value} {asked asked' : Validation Bool} {k k' : Kind}
    (hrefuse : C.Related C.Report (w.refuse known value) (w.refuse known' value))
    (h : k.Related (fun part part' => ∀ x, C.Related C.Outcome (sub part x) (sub' part' x)) k') :
    C.Related C.Outcome (matchKind s w known value asked sub k)
      (Conform.matchKind s w known' value asked' sub' k') := by
  cases h with
  | @array members members' each =>
    have hpairs := s.pairs_related each value
    rw [Conform.matchKind, Conform.matchKind]
    cases hp : s.pairs members value <;> cases hp' : s.pairs members' value <;>
      rw [hp, hp'] at hpairs <;> cases hpairs
    · exact C.refused hrefuse
    · next hpairs => exact C.matchPairing hpairs
  | union each =>
    refine C.bind (C.findSome₂ (each.imp fun _ _ hm => C.tryMember (hm value))) ?_
    intro found found' hf
    cases hf with
    | some _ => exact C.verdict hrefuse true
    | none => exact C.verdict hrefuse false
  | object each => exact C.matchObject hrefuse each

theorem matchKind {known value : Value} {asked asked' : Validation Bool} {k : Kind}
    (ha : C.Related Eq asked asked')
    (h : ∀ part ∈ k.parts, ∀ x, C.Related C.Outcome (sub part x) (sub' part x)) :
    C.Related C.Outcome (matchKind s w known value asked sub k)
      (Conform.matchKind s w known value asked' sub' k) := by
  have hrefuse := C.refuse w known value
  cases k with
  | atom name => exact C.verdict hrefuse _
  | predicate => exact C.bind ha fun passed _ hp => hp ▸ C.verdict hrefuse passed
  | pattern p => exact C.verdict hrefuse _
  | array members => exact C.matchContainer hrefuse (.array (List.forall₂_same.mpr h))
  | union members => exact C.matchContainer hrefuse (.union (List.forall₂_same.mpr h))
  | object entries =>
    refine C.matchContainer hrefuse (.object (List.forall₂_same.mpr fun e he => ⟨rfl, ?_⟩))
    exact h e.2 (Kind.mem_parts_object he)

/-- What is done at a node of no kind does not go on to anything. -/
theorem matchKindless (w : Validator) (known node value : Value) :
    C.Related C.Outcome (matchKindless w known node value)
      (Conform.matchKindless w known node value) := by
  unfold Conform.matchKindless
  split
  · unfold matchForeign
    split
    · split
      · exact C.fail _
      · exact C.refused (C.refuse w known value)
    · exact C.fail _
  · exact C.fail _

end

/-! ## Matching -/

section

variable {s : Setting} {again again' : Matcher}
  (h : ∀ w known node value,
    C.Related C.Outcome (again w known node value) (again' w known node value))
include h

theorem script (script : Script) :
    C.Related Eq (script.run s again) (script.run s again') := by
  have isNone {found found' : Option Mismatch} (hf : C.Outcome found found') :
      found.isNone = found'.isNone := by cases hf <;> rfl
  induction script with
  | answer v => exact C.lift _
  | fail failure => exact C.fail failure
  | test schema value options next ih =>
    refine C.bind (C.lift _) fun w w' hw => ?_
    subst hw
    refine C.bind (C.apart (h w schema schema value)) fun found found' hf => ?_
    exact isNone hf ▸ ih found.isNone
  | reenter schema value next ih =>
    refine C.bind (h s.owner schema schema value) fun found found' hf => ?_
    exact isNone hf ▸ ih found.isNone

theorem ask (w : Validator) (predicate value : Value) :
    C.Related Eq (s.ask again w predicate value) (s.ask again' w predicate value) := by
  have function (name : Option String) (className : String) (signature : Signature) (code : Nat) :
      C.Related Eq (callFunction s again w name className signature code value)
        (callFunction s again' w name className signature code value) := by
    delta callFunction
    dsimp only
    split
    · exact C.fail _
    · exact C.bind (C.record ..) fun _ _ _ => C.script h _
  cases predicate with
  | check c => exact C.lift _
  | object handle content =>
    cases content with
    | host f => exact C.lift _
    | function name className signature code own => exact function name className signature code
    | _ => exact C.fail _
  | _ => exact C.fail _

theorem matchNode (w : Validator) (known node value : Value) :
    C.Related C.Outcome (matchNode s again w known node value)
      (Conform.matchNode s again' w known node value) := by
  induction node using Value.kind_induction generalizing known value with
  | step v ih =>
    cases hk : v.kind? with
    | some k =>
      rw [matchNode_of_kind s again w hk, matchNode_of_kind s again' w hk]
      exact C.matchKind (C.ask h w v value) fun part hp x => ih k hk part hp part x
    | none =>
      rcases v.link_or with ⟨a, rfl⟩ | hne
      · exact h w (.link a) (s.heap.cell a) value
      · rw [matchNode_of_no_kind s again w hk hne, matchNode_of_no_kind s again' w hk hne]
        exact C.matchKindless w known v value

end

theorem matchWithin (s : Setting) (depth : Nat) (w : Validator) (known node value : Value) :
    C.Related C.Outcome (matchWithin s depth w known node value)
      (matchWithin s depth w known node value) := by
  induction depth generalizing w known node value with
  | zero => exact C.fail _
  | succ depth ih => exact C.matchNode ih w known node value

end Correspondence

end Conform
