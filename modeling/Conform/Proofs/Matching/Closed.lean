import Conform.Proofs.Matching.Verdict
import Conform.Proofs.Value.Owned
/-!
# Closed matching, said in three ways

A closed match refuses objects that own names which are not declared. That may be found out by
counting owned names and looking each of them up, by counting down for every declared name that is
owned, or by looking up alone. The three differ only for a frame with two columns of one declared
name: counting down accepts the least and looking up the most.
-/

set_option autoImplicit false

namespace Conform

/-! ## The other formulations -/

section

variable {m : Type → Type} [Monad m] {ρ : Type}

/-- Checks the declared properties in order and takes one off what is left for each name that is
owned; in the end nothing may be left. -/
def countDown (h : Heap) (read : Value → m Value) (refuse : m ρ) (owned : List Value) :
    (left : Int) → (declared : List (Declared m ρ)) → m (Option ρ)
  | left, [] => do
    if left = 0 then return none else return some (← refuse)
  | left, d :: declared => do
    match ← d.check (← read d.name) with
    | some refusal => return some refusal
    | none =>
      let found := owned.any fun name => h.equal name d.name
      countDown h read refuse owned (if found then left - 1 else left) declared

/-- Refuses an object that owns more names than are declared, and then counts down from the number
of names that it owns. -/
def matchCounting (h : Heap) (read : Value → m Value) (refuse : m ρ) (owned : List Value)
    (declared : List (Declared m ρ)) : m (Option ρ) := do
  if declared.length < owned.length then
    return some (← refuse)
  countDown h read refuse owned owned.length declared

/-- Matches the declared properties and refuses owners of any other, without counting. -/
def matchDifference (h : Heap) (read : Value → m Value) (refuse : m ρ) (owned : List Value)
    (declared : List (Declared m ρ)) : m (Option ρ) := do
  match ← visitDeclared read declared with
  | some refusal => return some refusal
  | none =>
    if owned.all (isDeclared h declared) then return none
    else return some (← refuse)

end

/-! ## What each of them accepts -/

namespace Validation

variable {ρ : Type}

/-- A run finds nothing to refuse. -/
def Accepts (x : Validation (Option ρ)) (t : Trace) : Prop := (x t).1 = .ok none

theorem not_accepts_refuse (refuse : Validation ρ) (t : Trace) :
    ¬ Accepts (refuse >>= fun r => pure (some r)) t := by
  unfold Accepts
  rcases hrun : refuse t with ⟨e | r, u⟩
  · rw [bind_of_error hrun]
    simp
  · rw [bind_of_ok hrun]
    simp

/-- A test that follows a visit is made only if the visit accepts. -/
theorem accepts_visit_iff (x : Validation (Option ρ)) (refuse : Validation ρ) (passed : Bool)
    (t : Trace) :
    Accepts (x >>= fun
      | some refusal => pure (some refusal)
      | none => if passed = true then pure none else refuse >>= fun r => pure (some r)) t
      ↔ Accepts x t ∧ passed = true := by
  have hnot := not_accepts_refuse refuse
  unfold Accepts at hnot ⊢
  rcases hrun : x t with ⟨e | _ | r, u⟩
  · rw [bind_of_error hrun]
    simp
  · rw [bind_of_ok hrun]
    cases passed with
    | true => simp
    | false => simpa using hnot u
  · rw [bind_of_ok hrun]
    simp

end Validation

open Validation

section

variable {ρ : Type} (h : Heap) (read : Value → Validation Value) (refuse : Validation ρ)
  (owned : List Value) (declared : List (Declared Validation ρ)) (t : Trace)

theorem accepts_matchDifference_iff :
    Accepts (matchDifference h read refuse owned declared) t ↔
      Accepts (visitDeclared read declared) t ∧ owned.all (isDeclared h declared) = true :=
  accepts_visit_iff _ refuse _ t

theorem accepts_matchClosed_iff :
    Accepts (matchClosed h read refuse owned declared) t ↔
      owned.length ≤ declared.length ∧ Accepts (visitDeclared read declared) t ∧
        owned.all (isDeclared h declared) = true := by
  unfold matchClosed
  by_cases hroom : declared.length < owned.length
  · have hnot := not_accepts_refuse refuse t
    simp only [hroom, if_true]
    constructor
    · intro ha
      exact absurd ha hnot
    · intro ha
      omega
  · simp only [hroom, if_false]
    rw [← accepts_matchDifference_iff h read refuse owned declared t]
    constructor
    · intro ha
      exact ⟨by omega, ha⟩
    · intro ha
      exact ha.2

/-- How many declared names are owned. -/
def ownedCount : Nat := declared.countP fun d => owned.any fun name => h.equal name d.name

/-- Counting down comes to what is left after one is taken off for each declared name that is
owned. -/
theorem countDown_eq (left : Int) :
    countDown h read refuse owned left declared
      = visitDeclared read declared >>= fun
        | some refusal => pure (some refusal)
        | none =>
          if decide (left = ownedCount h owned declared) = true then pure none
          else refuse >>= fun r => pure (some r) := by
  unfold visitDeclared
  induction declared generalizing left with
  | nil => by_cases hleft : left = 0 <;> simp [countDown, ownedCount, hleft]
  | cons d declared ih =>
    rw [countDown, List.findSomeM?_cons, Validation.bind_assoc, Validation.bind_assoc]
    congr 1
    funext x
    congr 1
    funext found
    cases found with
    | some refusal => rfl
    | none =>
      simp only [ih]
      congr 1
      funext found
      cases found with
      | some refusal => rfl
      | none =>
        have hstep : ((if owned.any fun name => h.equal name d.name then left - 1 else left)
            = (ownedCount h owned declared : Int))
            ↔ left = (ownedCount h owned (d :: declared) : Int) := by
          unfold ownedCount
          rw [List.countP_cons]
          split <;> omega
        simp only [decide_eq_true_eq, hstep]

theorem accepts_matchCounting_iff :
    Accepts (matchCounting h read refuse owned declared) t ↔
      owned.length ≤ declared.length ∧ Accepts (visitDeclared read declared) t ∧
        owned.length = ownedCount h owned declared := by
  unfold matchCounting
  by_cases hroom : declared.length < owned.length
  · have hnot := not_accepts_refuse refuse t
    simp only [hroom, if_true]
    constructor
    · intro ha
      exact absurd ha hnot
    · intro ha
      omega
  · simp only [hroom, if_false, countDown_eq]
    rw [accepts_visit_iff, decide_eq_true_eq, Int.ofNat_inj]
    constructor
    · intro ha
      exact ⟨by omega, ha⟩
    · intro ha
      exact ha.2

end

/-! ## Counting names -/

theorem countP_or_le {α : Type} {p q : α → Bool} (l : List α) :
    (l.countP fun a => p a || q a) ≤ l.countP p + l.countP q := by
  induction l with
  | nil => simp
  | cons a l ih =>
    simp only [List.countP_cons]
    cases p a <;> cases q a <;> simp <;> omega

/-- If each of `xs` is related to at most one of `ys`, no more of `ys` are reached than there are
of `xs` that reach any. -/
theorem countP_any_le_countP_any {α β : Type} {r : α → β → Bool} {xs : List α} {ys : List β}
    (single : ∀ x ∈ xs, ys.countP (r x) ≤ 1) :
    (ys.countP fun y => xs.any fun x => r x y) ≤ xs.countP fun x => ys.any (r x) := by
  induction xs with
  | nil => simp
  | cons x xs ih =>
    have hrest := ih fun y hy => single y (List.mem_cons_of_mem x hy)
    have hsplit : (ys.countP fun y => (x :: xs).any fun x => r x y)
        ≤ ys.countP (r x) + ys.countP fun y => xs.any fun x => r x y := by
      simp only [List.any_cons]
      exact countP_or_le ys
    have hfirst : ys.countP (r x) ≤ if ys.any (r x) then 1 else 0 := by
      by_cases hany : ys.any (r x) = true
      · rw [if_pos hany]
        exact single x (List.mem_cons_self ..)
      · have hnone : ys.countP (r x) = 0 := by
          rw [List.countP_eq_zero]
          intro y hy hr
          exact hany (List.any_eq_true.mpr ⟨y, hy, hr⟩)
        omega
    rw [List.countP_cons]
    omega

section

variable {ρ : Type} {h : Heap} {owned : List Value} {declared : List (Declared Validation ρ)}
  (declaredOnce : ∀ name ∈ owned, declared.countP (fun d => h.equal name d.name) ≤ 1)
include declaredOnce

/-- As many declared names as there are owned names can only be owned if all of these are
declared. -/
theorem all_isDeclared_of_ownedCount (hcount : owned.length = ownedCount h owned declared) :
    owned.all (isDeclared h declared) = true := by
  have hle : ownedCount h owned declared ≤ owned.countP (isDeclared h declared) :=
    countP_any_le_countP_any declaredOnce
  have hall : owned.countP (isDeclared h declared) = owned.length := by
    have hbound : owned.countP (isDeclared h declared) ≤ owned.length := List.countP_le_length
    omega
  exact List.all_eq_true.mpr (List.countP_eq_length.mp hall)

/-- Where no declared name is owned twice, counting down comes out even. -/
theorem ownedCount_of_all_isDeclared
    (ownedOnce : ∀ d ∈ declared, owned.countP (fun name => h.equal name d.name) ≤ 1)
    (hall : owned.all (isDeclared h declared) = true) :
    owned.length = ownedCount h owned declared := by
  have hlength : owned.countP (isDeclared h declared) = owned.length :=
    List.countP_eq_length.mpr (List.all_eq_true.mp hall)
  have hle : ownedCount h owned declared ≤ owned.countP (isDeclared h declared) :=
    countP_any_le_countP_any declaredOnce
  have hge : owned.countP (isDeclared h declared) ≤ ownedCount h owned declared :=
    countP_any_le_countP_any ownedOnce
  omega

end

/-! ## Validations -/

namespace Setting

/-- The properties that entries declare, each validated one step further down. -/
def declared (s : Setting) (entries : List (Value × Value)) :
    List (Declared Validation Mismatch) :=
  entries.map fun e => ⟨e.1, s.validateProperty e.1 e.2⟩

def read (s : Setting) (value name : Value) : Validation Value :=
  Validation.lift (s.heap.property value name)

/-- Validates an object by counting down. -/
def validateCounting (s : Setting) (schema value : Value) (entries : List (Value × Value)) :
    Validation (Option Mismatch) :=
  matchCounting s.heap (s.read value) (s.owner.refuse schema value) (s.heap.ownNames value)
    (s.declared entries)

/-- Validates an object without counting. -/
def validateDifference (s : Setting) (schema value : Value) (entries : List (Value × Value)) :
    Validation (Option Mismatch) :=
  matchDifference s.heap (s.read value) (s.owner.refuse schema value) (s.heap.ownNames value)
    (s.declared entries)

end Setting

section

variable {s : Setting} {w : Validator} {schema value : Value} {entries : List (Value × Value)}
  {t : Trace}

theorem accepts_findSomeM?_iff {α ρ : Type} {f : α → Validation (Option ρ)} {l : List α}
    (settled : ∀ a ∈ l, ∀ t u, Accepts (f a) t → Accepts (f a) u) (t : Trace) :
    Accepts (l.findSomeM? f) t ↔ ∀ a ∈ l, Accepts (f a) t := by
  induction l generalizing t with
  | nil =>
    constructor
    · exact fun _ a ha => by cases ha
    · exact fun _ => rfl
  | cons a l ih =>
    have hrest := ih fun b hb => settled b (List.mem_cons_of_mem a hb)
    rw [List.findSomeM?_cons, List.forall_mem_cons]
    rcases hrun : f a t with ⟨e | _ | r, u⟩
    · simp [Accepts, bind_of_error hrun, hrun]
    · have ha : Accepts (f a) t := by simp [Accepts, hrun]
      have hmove : (∀ b ∈ l, Accepts (f b) u) ↔ ∀ b ∈ l, Accepts (f b) t :=
        ⟨fun hb b hmem => settled b (List.mem_cons_of_mem a hmem) u t (hb b hmem),
          fun hb b hmem => settled b (List.mem_cons_of_mem a hmem) t u (hb b hmem)⟩
      unfold Accepts at hrest hmove ha ⊢
      rw [bind_of_ok hrun]
      simp only [ha, true_and]
      rw [← hmove, ← hrest u]
    · simp [Accepts, bind_of_ok hrun, hrun]

/-- Whether a value is accepted does not depend on where it is matched. -/
theorem accepts_matchWithin {d : Nat} {known node : Value} (u : Trace)
    (ha : Accepts (matchWithin s d w known node value) t) :
    Accepts (matchWithin s d w known node value) u := by
  unfold Accepts at ha ⊢
  rcases Correspondence.sameOutcome.matchWithin s d w known node value t u with
    ⟨e, h, h'⟩ | ⟨a, b, h, h', hr⟩
  · rw [ha] at h
    cases h
  · rw [ha] at h
    cases h
    cases hr with
    | none => exact h'

/-- A validation accepts what matching accepts at some depth. -/
theorem accepts_validate_iff :
    Accepts (s.validate schema value) t ↔
      ∃ d, Accepts (matchWithin s d s.owner schema schema value) t := by
  unfold Accepts
  constructor
  · intro ha
    unfold Setting.validate at ha
    rcases deepening_cases (fun d => matchWithin s d s.owner schema schema value)
      (s.depthFor schema value) t with ⟨d, hd⟩ | hd
    · rw [hd] at ha
      exact ⟨d, ha⟩
    · rw [hd] at ha
      cases ha
  · rintro ⟨d, ha⟩
    have hends : (matchWithin s d s.owner schema schema value t).1 ≠ .error .endless := by
      simp [ha]
    rw [Setting.validate_eq hends]
    exact ha

theorem accepts_matchWithin_of_le {d d' : Nat} (hd : d ≤ d') {known node : Value}
    (ha : Accepts (matchWithin s d w known node value) t) :
    Accepts (matchWithin s d' w known node value) t := by
  unfold Accepts at ha ⊢
  have hends : (matchWithin s d w known node value t).1 ≠ .error .endless := by simp [ha]
  rw [matchWithin_of_le hd hends]
  exact ha

theorem accepts_read_iff {name : Value} {check : Value → Validation (Option Mismatch)} :
    Accepts (s.read value name >>= fun read => Validation.descend w.lane name (check read)) t ↔
      ∃ read, s.heap.property value name = .ok read ∧
        Accepts (check read) (t.push w.lane name) := by
  unfold Setting.read
  cases hread : s.heap.property value name with
  | error e => simp [Accepts]
  | ok read => simp [Accepts, descend_result]

/-- Checking declared properties accepts if what is read under each name is accepted. -/
theorem accepts_visitEntries_iff {sub : PartMatcher}
    (settled : ∀ e ∈ entries, ∀ read t u, Accepts (sub e.2 read) t → Accepts (sub e.2 read) u) :
    Accepts (visitEntries s w sub value entries) t ↔
      ∀ e ∈ entries, ∃ read, s.heap.property value e.1 = .ok read ∧ Accepts (sub e.2 read) t := by
  have hread (e : Value × Value) (u : Trace) :
      Accepts (s.read value e.1 >>= fun read => descend w.lane e.1 (sub e.2 read)) u ↔
        ∃ read, s.heap.property value e.1 = .ok read ∧
          Accepts (sub e.2 read) (u.push w.lane e.1) :=
    accepts_read_iff
  unfold visitEntries
  rw [accepts_findSomeM?_iff]
  · refine forall₂_congr fun e he => (hread e t).trans ?_
    refine exists_congr fun read => and_congr_right fun _ => ?_
    exact ⟨settled e he read _ t, settled e he read t _⟩
  · intro e he t u ha
    obtain ⟨read, hr, ha⟩ := (hread e t).mp ha
    exact (hread e u).mpr ⟨read, hr, settled e he read _ _ ha⟩

theorem accepts_validate_settled {part read : Value} {t u : Trace}
    (ha : Accepts (s.validate part read) t) : Accepts (s.validate part read) u := by
  obtain ⟨d, hd⟩ := accepts_validate_iff.mp ha
  exact accepts_validate_iff.mpr ⟨d, accepts_matchWithin u hd⟩

theorem accepts_visit_matchWithin_iff (d : Nat) :
    Accepts (visitEntries s s.owner (fun part x => matchWithin s d s.owner part part x) value
        entries) t ↔
      ∀ e ∈ entries, ∃ read, s.heap.property value e.1 = .ok read ∧
        Accepts (matchWithin s d s.owner e.2 e.2 read) t :=
  accepts_visitEntries_iff fun _ _ _ _ u ha => accepts_matchWithin u ha

/-- Checking properties by validations accepts if checking them at some depth does. -/
theorem accepts_visit_validate_iff :
    Accepts (visitEntries s s.owner s.validate value entries) t ↔
      ∃ d, Accepts (visitEntries s s.owner
        (fun part x => matchWithin s d s.owner part part x) value entries) t := by
  rw [accepts_visitEntries_iff fun _ _ _ _ _ => accepts_validate_settled]
  simp only [accepts_visit_matchWithin_iff]
  constructor
  · intro hall
    obtain ⟨least, hleast⟩ := exists_depth entries (P := fun e d =>
        ∃ read, s.heap.property value e.1 = .ok read ∧
          Accepts (matchWithin s d s.owner e.2 e.2 read) t) fun e he => by
      obtain ⟨read, hr, ha⟩ := hall e he
      obtain ⟨d, hd⟩ := accepts_validate_iff.mp ha
      exact ⟨d, fun d' hle => ⟨read, hr, accepts_matchWithin_of_le hle hd⟩⟩
    exact ⟨least, hleast least (Nat.le_refl least)⟩
  · rintro ⟨d, hall⟩ e he
    obtain ⟨read, hr, ha⟩ := hall e he
    exact ⟨read, hr, accepts_validate_iff.mpr ⟨d, ha⟩⟩

theorem accepts_visit_of_le {d d' : Nat} (hd : d ≤ d')
    (ha : Accepts (visitEntries s s.owner (fun part x => matchWithin s d s.owner part part x)
      value entries) t) :
    Accepts (visitEntries s s.owner (fun part x => matchWithin s d' s.owner part part x) value
      entries) t := by
  rw [accepts_visit_matchWithin_iff] at ha ⊢
  intro e he
  obtain ⟨read, hr, hread⟩ := ha e he
  exact ⟨read, hr, accepts_matchWithin_of_le hd hread⟩

theorem declared_eq : s.declared entries = declare s.owner s.validate entries := rfl

theorem visitDeclared_declared :
    visitDeclared (s.read value) (s.declared entries)
      = visitEntries s s.owner s.validate value entries :=
  visitDeclared_declare s s.owner s.validate value entries

/-- A closed match accepts as many names as there can be, if what is read under each declared name
is accepted and no other name is owned. -/
theorem accepts_matchClosed_declare_iff (sub : PartMatcher) :
    Accepts (matchClosed s.heap (s.read value) (s.owner.refuse schema value)
        (s.heap.ownNames value) (declare s.owner sub entries)) t ↔
      (s.heap.ownNames value).length ≤ entries.length ∧
        Accepts (visitEntries s s.owner sub value entries) t ∧
        (s.heap.ownNames value).all (isDeclared s.heap (s.declared entries)) = true := by
  have hdeclared (name : Value) : isDeclared s.heap (declare s.owner sub entries) name
      = isDeclared s.heap (s.declared entries) name := by
    simp only [isDeclared, declare, Setting.declared, List.any_map]
    rfl
  have hlength : (declare s.owner sub entries).length = entries.length := List.length_map ..
  have hvisit : visitDeclared (s.read value) (declare s.owner sub entries)
      = visitEntries s s.owner sub value entries :=
    visitDeclared_declare s s.owner sub value entries
  rw [accepts_matchClosed_iff, funext hdeclared, hlength, hvisit]

/-- What a validation accepts is what the closed match accepts whose properties are validated one
by one. -/
theorem accepts_validate_object_iff (hk : s.heap.kind? schema = some (.object entries))
    (hclosed : s.owner.closed = true) (hplain : value.isPlainObject = true)
    (harray : s.heap.isArray value = false) :
    Accepts (s.validate schema value) t ↔
      Accepts (matchClosed s.heap (s.read value) (s.owner.refuse schema value)
        (s.heap.ownNames value) (s.declared entries)) t := by
  have hobject (sub : PartMatcher) :
      matchObject s s.owner schema value (declare s.owner sub entries)
        = matchClosed s.heap (s.read value) (s.owner.refuse schema value) (s.heap.ownNames value)
            (declare s.owner sub entries) := by
    simp only [matchObject, hplain, harray, hclosed, Bool.not_true, Bool.or_self,
      Bool.false_eq_true, if_false, if_true]
    rfl
  rw [accepts_validate_iff, declared_eq, accepts_matchClosed_declare_iff,
    accepts_visit_validate_iff]
  constructor
  · rintro ⟨d, hd⟩
    obtain ⟨d', -, -, hrun⟩ := matchWithin_of_kind (w := s.owner) hk d value
    have ha := accepts_matchWithin_of_le (Nat.le_add_right d 2) hd
    rw [hrun, matchKind, hobject, accepts_matchClosed_declare_iff] at ha
    exact ⟨ha.1, ⟨d' + 1, ha.2.1⟩, ha.2.2⟩
  · rintro ⟨hroom, ⟨d, hd⟩, hall⟩
    obtain ⟨d', hle, -, hrun⟩ := matchWithin_of_kind (w := s.owner) hk d value
    refine ⟨d + 2, ?_⟩
    rw [hrun, matchKind, hobject, accepts_matchClosed_declare_iff]
    exact ⟨hroom, accepts_visit_of_le (by omega) hd, hall⟩

theorem accepts_validateCounting_iff :
    Accepts (s.validateCounting schema value entries) t ↔
      (s.heap.ownNames value).length ≤ entries.length ∧
        Accepts (visitEntries s s.owner s.validate value entries) t ∧
        (s.heap.ownNames value).length
          = ownedCount s.heap (s.heap.ownNames value) (s.declared entries) := by
  have hlength : (s.declared entries).length = entries.length := List.length_map ..
  unfold Setting.validateCounting
  rw [accepts_matchCounting_iff, hlength, visitDeclared_declared]

theorem accepts_validateDifference_iff :
    Accepts (s.validateDifference schema value entries) t ↔
      Accepts (visitEntries s s.owner s.validate value entries) t ∧
        (s.heap.ownNames value).all (isDeclared s.heap (s.declared entries)) = true := by
  unfold Setting.validateDifference
  rw [accepts_matchDifference_iff, visitDeclared_declared]

/-- A value owns each declared name once if it is no frame with two columns of that name. -/
theorem ownedOnce_of_wellKeyed {h : Heap} {value : Value} {entries : List (Value × Value)}
    (hvalue : WellKeyed h value)
    (columnsOnce : ∀ handle columns index, value = .object handle (.frame columns index) →
      ∀ e ∈ entries, columns.countP (fun c => h.equal c.1 e.1) ≤ 1) :
    ∀ e ∈ entries, (h.ownNames value).countP (fun name => h.equal name e.1) ≤ 1 := by
  intro e he
  by_cases hframe : ∃ handle columns index, value = .object handle (.frame columns index)
  · obtain ⟨handle, columns, index, rfl⟩ := hframe
    have hcolumns : h.ownNames (.object handle (.frame columns index)) = columns.map Prod.fst := rfl
    rw [hcolumns, List.countP_map]
    exact columnsOnce handle columns index rfl e he
  · refine (keyed_ownNames hvalue fun handle columns index hv => ?_).onLeft e.1
    exact hframe ⟨handle, columns, index, hv⟩

/-- Counting down accepts nothing that a validation refuses, and a validation nothing that lookup
alone refuses. All three accept the same values, except for frames that have two columns of one
declared name. -/
theorem closed_formulations_agree (hk : s.heap.kind? schema = some (.object entries))
    (hclosed : s.owner.closed = true) (hplain : value.isPlainObject = true)
    (harray : s.heap.isArray value = false) (hentries : Keyed s.heap (entries.map Prod.fst))
    (hvalue : WellKeyed s.heap value) (t : Trace) :
    (Accepts (s.validateCounting schema value entries) t → Accepts (s.validate schema value) t) ∧
      (Accepts (s.validate schema value) t →
        Accepts (s.validateDifference schema value entries) t) ∧
      ((∀ handle columns index, value = .object handle (.frame columns index) →
          ∀ e ∈ entries, columns.countP (fun c => s.heap.equal c.1 e.1) ≤ 1) →
        Accepts (s.validateDifference schema value entries) t →
        Accepts (s.validateCounting schema value entries) t) := by
  have hdeclared (name : Value) (_ : name ∈ s.heap.ownNames value) :
      (s.declared entries).countP (fun d => s.heap.equal name d.name) ≤ 1 := by
    have hcount := hentries.onRight name
    rw [List.countP_map] at hcount
    rw [Setting.declared, List.countP_map]
    exact hcount
  rw [accepts_validate_object_iff hk hclosed hplain harray, declared_eq,
    accepts_matchClosed_declare_iff, accepts_validateCounting_iff, accepts_validateDifference_iff]
  refine ⟨?_, ?_, ?_⟩
  · rintro ⟨hroom, hvisit, hcount⟩
    exact ⟨hroom, hvisit, all_isDeclared_of_ownedCount hdeclared hcount⟩
  · rintro ⟨-, hvisit, hall⟩
    exact ⟨hvisit, hall⟩
  · rintro columnsOnce ⟨hvisit, hall⟩
    have hcount := ownedCount_of_all_isDeclared hdeclared
      (List.forall_mem_map.mpr (ownedOnce_of_wellKeyed hvalue columnsOnce)) hall
    have hbound : ownedCount s.heap (s.heap.ownNames value) (s.declared entries)
        ≤ (s.declared entries).length := List.countP_le_length
    rw [Setting.declared, List.length_map, ← Setting.declared] at hbound
    exact ⟨by omega, hvisit, hcount⟩

end

/-! ## Two columns of one name -/

def columnSetting : Setting :=
  ⟨⟨.empty, fun _ _ => .answer .null, 0⟩, ⟨⟨.bool true⟩, true, .own⟩⟩

def columns (names : List String) : Value :=
  .object none (.frame (names.map fun name => (.str name, .int64, [.int 1])) none)

def columnEntries : List (Value × Value) :=
  [(.str "a", .str "object"), (.str "b", .union [.str "undefined", .str "object"])]

theorem keyed_columnEntries : Keyed columnSetting.heap (columnEntries.map Prod.fst) := by
  have distinct : ["a", "b"].Nodup := by simp
  exact keyed_texts columnSetting.heap distinct

theorem wellKeyed_columns (names : List String) : WellKeyed columnSetting.heap (columns names) := by
  refine ⟨nofun, fun handle content hcontent => ?_⟩
  cases hcontent
  exact List.nodup_nil

theorem closed_formulations_agree_columns :
    columnSetting.heap.kind? (.mapping columnEntries) = some (.object columnEntries) ∧
      columnSetting.owner.closed = true ∧ (columns ["b", "a"]).isPlainObject = true ∧
      columnSetting.heap.isArray (columns ["b", "a"]) = false ∧
      Keyed columnSetting.heap (columnEntries.map Prod.fst) ∧
      WellKeyed columnSetting.heap (columns ["b", "a"]) ∧
      (Accepts (columnSetting.validateCounting (.mapping columnEntries) (columns ["b", "a"])
          columnEntries) .start ↔
        Accepts (columnSetting.validate (.mapping columnEntries) (columns ["b", "a"])) .start) ∧
      (Accepts (columnSetting.validate (.mapping columnEntries) (columns ["b", "a"])) .start ↔
        Accepts (columnSetting.validateDifference (.mapping columnEntries) (columns ["b", "a"])
          columnEntries) .start) := by
  have kind : columnSetting.heap.kind? (.mapping columnEntries) = some (.object columnEntries) :=
    rfl
  have plain : (columns ["b", "a"]).isPlainObject = true := rfl
  obtain ⟨hcounting, hcoded, hdifference⟩ := closed_formulations_agree kind rfl plain rfl
    keyed_columnEntries (wellKeyed_columns ["b", "a"]) .start
  have hagree := hdifference fun handle found index hframe => by
    cases hframe
    exact List.forall_mem_cons.mpr ⟨by decide, List.forall_mem_singleton.mpr (by decide)⟩
  exact ⟨kind, rfl, plain, rfl, keyed_columnEntries, wellKeyed_columns ["b", "a"],
    ⟨hcounting, fun ha => hagree (hcoded ha)⟩, ⟨hcoded, fun ha => hcounting (hagree ha)⟩⟩

theorem not_accepts_validate {s : Setting} {schema value : Value} {t : Trace} {d : Nat}
    {m : Mismatch} (hrun : (matchWithin s d s.owner schema schema value t).1 = .ok (some m)) :
    ¬ Accepts (s.validate schema value) t := by
  have hends : (matchWithin s d s.owner schema schema value t).1 ≠ .error .endless := by simp [hrun]
  unfold Accepts
  rw [Setting.validate_eq hends, hrun]
  simp

/-- A frame that owns a declared name twice: a validation refuses what lookup alone accepts, and
counting down refuses what a validation accepts. -/
theorem twin_columns_tell_apart :
    (¬ Accepts (columnSetting.validate (.mapping [(.str "a", .str "object")])
          (columns ["a", "a"])) .start ∧
        Accepts (columnSetting.validateDifference (.mapping [(.str "a", .str "object")])
          (columns ["a", "a"]) [(.str "a", .str "object")]) .start) ∧
      (Accepts (columnSetting.validate (.mapping columnEntries) (columns ["a", "a"])) .start ∧
        ¬ Accepts (columnSetting.validateCounting (.mapping columnEntries) (columns ["a", "a"])
          columnEntries) .start) := by
  refine ⟨⟨?_, ?_⟩, ?_, ?_⟩
  · have hrun : (matchWithin columnSetting 1 columnSetting.owner
        (.mapping [(.str "a", .str "object")]) (.mapping [(.str "a", .str "object")])
        (columns ["a", "a"]) .start).1
        = .ok (some ⟨[], columns ["a", "a"], .mapping [(.str "a", .str "object")]⟩) := rfl
    exact not_accepts_validate hrun
  · exact accepts_validateDifference_iff.mpr ⟨accepts_visit_validate_iff.mpr ⟨1, rfl⟩, rfl⟩
  · exact accepts_validate_iff.mpr ⟨1, rfl⟩
  · intro ha
    exact absurd (accepts_validateCounting_iff.mp ha).2.2 (by decide)

end Conform
