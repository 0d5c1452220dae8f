import Conform.Proofs.Matching.Walk
/-!
# What may come of matching

Matching a value against a schema passes if the value matches, reports the end of the failing walk
if there is one, and fails if a predicate or the reading of a property fails first. For each kind
of schema this holds of the node if it holds of its parts.
-/

set_option autoImplicit false

namespace Conform

open Validation

/-! ## Failures -/

/-- A predicate or the reading of a property fails in the course of matching a value against a
schema, where what comes before does not decide. -/
inductive Raises (s : Setting) (w : Validator) : (schema value : Value) → Failure → Prop
  | predicate {schema value : Value} {failure : Failure}
      (kind : s.heap.kind? schema = some .predicate)
      (answer : s.Answers w schema value (.error failure)) : Raises s w schema value failure
  | read {schema value name part : Value} {entries : List (Value × Value)} {failure : Failure}
      (i : Nat) (kind : s.heap.kind? schema = some (.object entries))
      (admits : s.Admits w entries value) (here : entries[i]? = some (name, part))
      (earlier : ∀ j e, j < i → entries[j]? = some e → Fits s w value e)
      (read : s.heap.property value name = .error failure) : Raises s w schema value failure
  | part {schema value step part inner : Value} {failure : Failure}
      (enters : Enters s w schema value step part inner)
      (raises : Raises s w part inner failure) : Raises s w schema value failure
  | member {schema value member : Value} {members : List Value} {failure : Failure} (i : Nat)
      (kind : s.heap.kind? schema = some (.union members)) (here : members[i]? = some member)
      (earlier : ∀ j m, j < i → members[j]? = some m → ¬ Matches s w m value)
      (raises : Raises s w member value failure) : Raises s w schema value failure

section

variable {s : Setting} {w : Validator}

/-- Matching goes to one of the parts that are matched at all. -/
theorem mem_reached_of_enters {schema value step part inner : Value} {k : Kind}
    (hk : s.heap.kind? schema = some k) (he : Enters s w schema value step part inner) :
    (part, inner) ∈ s.reached value k := by
  cases he with
  | item i kind fits here earlier =>
    cases kind.symm.trans hk
    rw [Setting.reached, Setting.tasks, fits]
    · exact List.mem_of_getElem? here
    · intro entries heq
      cases heq
  | property i kind admits here earlier read =>
    cases kind.symm.trans hk
    rw [Setting.reached, if_neg (by simp [admits.object, admits.notArray])]
    exact Setting.mem_tasks_of_read (List.mem_of_getElem? here) read

/-- Nothing fails at a node if it does not fail by itself, nor at any part that is gone to. -/
theorem not_raises_of_reached {schema value : Value} {k : Kind}
    (hk : s.heap.kind? schema = some k)
    (hanswer : k = .predicate → ∃ passed, s.Answers w schema value (.ok passed))
    (hread : ∀ entries, k = .object entries → value.isPlainObject = true →
      s.heap.isArray value = false → ∀ e ∈ entries, ∃ read, s.heap.property value e.1 = .ok read)
    (hparts : ∀ task ∈ s.reached value k, ∀ failure, ¬ Raises s w task.1 task.2 failure)
    (failure : Failure) : ¬ Raises s w schema value failure := by
  intro h
  cases h with
  | predicate kind answer =>
    cases kind.symm.trans hk
    obtain ⟨passed, hpassed⟩ := hanswer rfl
    cases answers_unique answer hpassed
  | read i kind admits here earlier read =>
    cases kind.symm.trans hk
    obtain ⟨inner, hinner⟩ :=
      hread _ rfl admits.object admits.notArray _ (List.mem_of_getElem? here)
    cases hinner.symm.trans read
  | @part _ _ _ part inner _ enters raises =>
    exact hparts (part, inner) (mem_reached_of_enters hk enters) failure raises
  | @member _ _ member _ _ i kind here earlier raises =>
    cases kind.symm.trans hk
    refine hparts (member, value) ?_ failure raises
    exact List.mem_map.mpr ⟨member, List.mem_of_getElem? here, rfl⟩

theorem not_raises_of_tasks {schema value : Value} {k : Kind}
    (hk : s.heap.kind? schema = some k)
    (hanswer : k = .predicate → ∃ passed, s.Answers w schema value (.ok passed))
    (hread : ∀ entries, k = .object entries → ∀ e ∈ entries,
      ∃ read, s.heap.property value e.1 = .ok read)
    (htasks : ∀ task ∈ s.tasks value k, ∀ failure, ¬ Raises s w task.1 task.2 failure)
    (failure : Failure) : ¬ Raises s w schema value failure :=
  not_raises_of_reached hk hanswer (fun entries hobject _ _ => hread entries hobject)
    (fun task htask => htasks task (Setting.mem_tasks_of_mem_reached htask)) failure

theorem not_raises_check {c : Check} {value : Value} {passed : Bool}
    (h : c.holds value = .ok passed) (failure : Failure) :
    ¬ Raises s w (.check c) value failure := by
  refine not_raises_of_tasks (k := .predicate) rfl (fun _ => ⟨passed, ?_⟩) nofun nofun failure
  rw [← h]
  exact answers_check s w c value

end

/-! ## Outcomes -/

/-- What may come of matching a value against a schema at the end of `path`. -/
inductive Judged (s : Setting) (w : Validator) (schema value : Value) (path : List Value) :
    Except Failure (Option Mismatch) → Prop
  | passed (h : Matches s w schema value) : Judged s w schema value path (.ok none)
  | refused {walk : List Value} {expected actual : Value}
      (h : FailingWalk s w schema value walk expected actual) :
      Judged s w schema value path (.ok (some ⟨path ++ walk, actual, expected⟩))
  | raised {failure : Failure} (h : Raises s w schema value failure) :
      Judged s w schema value path (.error failure)

variable {s : Setting} {w : Validator}

theorem Judged.matches {schema value : Value} {path : List Value}
    (h : Judged s w schema value path (.ok none)) : Matches s w schema value := by
  cases h with
  | passed h => exact h

/-- What comes of a part, one step further down, comes of the whole if it does not pass. -/
theorem Judged.ofPart {schema value step part inner : Value} {path : List Value}
    {out : Except Failure (Option Mismatch)} (enters : Enters s w schema value step part inner)
    (h : Judged s w part inner (path ++ [step]) out) (hne : out ≠ .ok none) :
    Judged s w schema value path out := by
  cases h with
  | passed h => exact absurd rfl hne
  | refused h =>
    rw [List.append_assoc, List.singleton_append]
    exact .refused (.down enters h)
  | raised h => exact .raised (.part enters h)

theorem judged_refuse {schema value : Value} (h : Fails s w schema value) (t : Trace) :
    Judged s w schema value (t.pathIn w.lane) ((some <$> w.refuse schema value) t).1 := by
  have hrefused : Judged s w schema value (t.pathIn w.lane)
      (.ok (some ⟨t.pathIn w.lane ++ [], value, schema⟩)) := .refused (.here h)
  rw [List.append_nil] at hrefused
  exact hrefused

theorem judged_verdict {schema value : Value} {passed : Bool}
    (hm : passed = true → Matches s w schema value)
    (hf : passed = false → Fails s w schema value) (t : Trace) :
    Judged s w schema value (t.pathIn w.lane) (w.verdict schema value passed t).1 := by
  cases passed with
  | true => exact .passed (hm rfl)
  | false => exact judged_refuse (hf rfl) t

/-! ## Each kind of schema -/

/-- What comes of trying a value with a member of a union. -/
inductive Tried (s : Setting) (w : Validator) (value member : Value) :
    Except Failure (Option Unit) → Prop
  | missed (h : ¬ Matches s w member value) : Tried s w value member (.ok none)
  | hit (h : Matches s w member value) : Tried s w value member (.ok (some ()))
  | raised {failure : Failure} (h : Raises s w member value failure) :
      Tried s w value member (.error failure)

theorem tried_tryMember {sub : PartMatcher} {value member : Value} {t : Trace}
    (h : Judged s w member value (t.pathIn w.lane) (sub member value t).1) :
    Tried s w value member (tryMember sub value member t).1 := by
  unfold tryMember
  rcases hrun : sub member value t with ⟨_ | _ | mismatch, u⟩ <;> rw [hrun] at h
  · rw [bind_of_error hrun]
    cases h with
    | raised h => exact .raised h
  · rw [bind_of_ok hrun]
    exact .hit h.matches
  · rw [bind_of_ok hrun]
    cases h with
    | refused h => exact .missed (not_matches_of_failingWalk h)

/-- What comes of checking what is read under a declared name at the end of `path`. -/
inductive Checked (s : Setting) (w : Validator) (value : Value) (path : List Value)
    (e : Value × Value) : Except Failure (Option Mismatch) → Prop
  | unreadable {failure : Failure} (read : s.heap.property value e.1 = .error failure) :
      Checked s w value path e (.error failure)
  | read {inner : Value} {out : Except Failure (Option Mismatch)}
      (read : s.heap.property value e.1 = .ok inner)
      (h : Judged s w e.2 inner (path ++ [e.1]) out) : Checked s w value path e out

theorem Checked.fits {value : Value} {path : List Value} {e : Value × Value}
    (h : Checked s w value path e (.ok none)) : Fits s w value e := by
  cases h with
  | read hr h => exact ⟨_, hr, h.matches⟩

theorem admits_of_tests {entries : List (Value × Value)} {value : Value}
    (hplain : ¬ (!value.isPlainObject || s.heap.isArray value) = true)
    (hroom : ¬ (w.closed && entries.length < (s.heap.ownNames value).length) = true) :
    s.Admits w entries value := by
  obtain ⟨hobject, hsingle⟩ := plain_of_not_refused hplain
  refine ⟨hobject, hsingle, fun hclosed => ?_⟩
  rw [hclosed, Bool.true_and, decide_eq_true_eq] at hroom
  omega

theorem all_declared_eq_false_iff {h : Heap} {entries : List (Value × Value)} {owned : List Value} :
    (owned.all fun name => entries.any fun e => h.equal name e.1) = false ↔
      ∃ name ∈ owned, h.Undeclared entries name := by
  simp only [List.all_eq_false, Bool.not_eq_true, List.any_eq_false, Heap.Undeclared]

section

variable {sub : PartMatcher} (keeps : ∀ part x t, (sub part x t).2.SamePlace t)
include keeps

theorem keeps_outcome (part x : Value) :
    Correspondence.keepingPlace.Related Correspondence.keepingPlace.Outcome (sub part x)
      (sub part x) := by
  refine fun t => ⟨keeps part x t, fun found _ => ⟨found, ?_⟩⟩
  cases found with
  | none => exact .none
  | some mismatch => exact .some rfl

theorem judged_matchPairing {schema value : Value} {members : List Value}
    {pairs : List (Value × Value)} (hk : s.heap.kind? schema = some (.array members))
    (hp : s.pairs members value = some pairs)
    (hsub : ∀ pair ∈ pairs, ∀ t,
      Judged s w pair.1 pair.2 (t.pathIn w.lane) (sub pair.1 pair.2 t).1) (t : Trace) :
    Judged s w schema value (t.pathIn w.lane) (matchPairing w sub pairs t).1 := by
  have hget {i : Nat} {a : (Value × Value) × Nat} (h : pairs.zipIdx[i]? = some a) :
      pairs[i]? = some a.1 ∧ a.2 = i := by
    rw [List.getElem?_zipIdx] at h
    obtain ⟨pair, hpair, rfl⟩ := Option.map_eq_some_iff.mp h
    exact ⟨hpair, Nat.zero_add i⟩
  have hfirst : FirstOutcome
      (fun a out => Judged s w a.1.1 a.1.2 (t.pathIn w.lane ++ [.int a.2]) out)
      pairs.zipIdx (matchPairing w sub pairs t).1 := by
    refine findSomeM?_outcome (fun a u => Trace.samePlace_pop (keeps a.1.1 a.1.2 _)) _ t ?_
    intro a ha u hu
    obtain ⟨i, hi⟩ := List.mem_iff_getElem?.mp ha
    have hj := hsub a.1 (List.mem_of_getElem? (hget hi).1) (u.push w.lane (.int a.2))
    rw [Trace.pathIn_push, hu.pathIn] at hj
    exact hj
  generalize (matchPairing w sub pairs t).1 = out at hfirst ⊢
  cases hfirst with
  | passed all =>
    refine .passed ((matches_array_iff hk).mpr ⟨pairs, hp, fun pair hpair => ?_⟩)
    obtain ⟨i, hi⟩ := List.mem_iff_getElem?.mp hpair
    have hz : pairs.zipIdx[i]? = some (pair, i) := by
      rw [List.getElem?_zipIdx, hi, Option.map_some, Nat.zero_add]
    exact (all (pair, i) (List.mem_of_getElem? hz)).matches
  | @stopped i a _ here before outcome halts =>
    obtain ⟨hi, hindex⟩ := hget here
    rw [hindex] at outcome
    refine .ofPart (.item i hk hp hi fun j pair hj hpair => ?_) outcome halts
    refine (before j (pair, j) hj ?_).matches
    rw [List.getElem?_zipIdx, hpair, Option.map_some, Nat.zero_add]

theorem judged_union {schema value : Value} {members : List Value}
    (hk : s.heap.kind? schema = some (.union members))
    (hsub : ∀ member ∈ members, ∀ t,
      Judged s w member value (t.pathIn w.lane) (sub member value t).1) (t : Trace) :
    Judged s w schema value (t.pathIn w.lane)
      ((members.findSomeM? (tryMember sub value)
        >>= fun found => w.verdict schema value found.isSome) t).1 := by
  have htry (member : Value) : Correspondence.keepingPlace.Related (Option.Rel Eq)
      (tryMember sub value member) (tryMember sub value member) :=
    Correspondence.keepingPlace.tryMember (keeps_outcome keeps member value)
  have hplace := (Correspondence.keepingPlace.findSome members fun member _ => htry member) t
  have hfirst : FirstOutcome (Tried s w value) members
      (members.findSomeM? (tryMember sub value) t).1 :=
    findSomeM?_outcome (fun member u => (htry member u).1) members t
      fun member hm u hu => tried_tryMember (hsub member hm u)
  rcases hrun : members.findSomeM? (tryMember sub value) t with ⟨out, u⟩
  rw [hrun] at hfirst hplace
  cases hfirst with
  | passed all =>
    rw [bind_of_ok hrun, ← hplace.1.pathIn w.lane]
    refine judged_refuse (.union hk fun member hm => ?_) u
    cases all member hm with
    | missed h => exact h
  | stopped here before outcome halts =>
    cases outcome with
    | missed h => exact absurd rfl halts
    | hit h =>
      rw [bind_of_ok hrun]
      exact .passed ((matches_union_iff hk).mpr ⟨_, List.mem_of_getElem? here, h⟩)
    | raised h =>
      rw [bind_of_error hrun]
      refine .raised (.member _ hk here (fun j member hj hm => ?_) h)
      cases before j member hj hm with
      | missed h => exact h

theorem judged_visitEntries {schema value : Value} {entries : List (Value × Value)}
    (hk : s.heap.kind? schema = some (.object entries)) (admits : s.Admits w entries value)
    (hsub : ∀ e ∈ entries, ∀ read, s.heap.property value e.1 = .ok read →
      ∀ t, Judged s w e.2 read (t.pathIn w.lane) (sub e.2 read t).1) (t : Trace) :
    ((visitEntries s w sub value entries t).1 = .ok none ∧ ∀ e ∈ entries, Fits s w value e) ∨
      ((visitEntries s w sub value entries t).1 ≠ .ok none ∧
        Judged s w schema value (t.pathIn w.lane) (visitEntries s w sub value entries t).1) := by
  have hplace (e : Value × Value) (u : Trace) :
      ((Validation.lift (s.heap.property value e.1) >>= fun read =>
        Validation.descend w.lane e.1 (sub e.2 read)) u).2.SamePlace u := by
    cases s.heap.property value e.1 with
    | error failure => exact .refl u
    | ok read => exact Trace.samePlace_pop (keeps e.2 read (u.push w.lane e.1))
  have hfirst : FirstOutcome (Checked s w value (t.pathIn w.lane)) entries
      (visitEntries s w sub value entries t).1 := by
    refine findSomeM?_outcome hplace entries t fun e he u hu => ?_
    cases hr : s.heap.property value e.1 with
    | error failure => exact .unreadable hr
    | ok read =>
      have hj := hsub e he read hr (u.push w.lane e.1)
      rw [Trace.pathIn_push, hu.pathIn] at hj
      exact .read hr hj
  generalize (visitEntries s w sub value entries t).1 = out at hfirst ⊢
  cases hfirst with
  | passed all => exact .inl ⟨rfl, fun e he => (all e he).fits⟩
  | @stopped i e _ here before outcome halts =>
    have earlier (j : Nat) (e : Value × Value) (hj : j < i) (he : entries[j]? = some e) :
        Fits s w value e := (before j e hj he).fits
    refine .inr ⟨halts, ?_⟩
    cases outcome with
    | unreadable hr => exact .raised (.read i hk admits here earlier hr)
    | read hr h => exact .ofPart (.property i hk admits here earlier hr) h halts

theorem judged_object {schema value : Value} {entries : List (Value × Value)}
    (hk : s.heap.kind? schema = some (.object entries))
    (hsub : ∀ e ∈ entries, ∀ read, s.heap.property value e.1 = .ok read →
      ∀ t, Judged s w e.2 read (t.pathIn w.lane) (sub e.2 read t).1) (t : Trace) :
    Judged s w schema value (t.pathIn w.lane)
      (matchObject s w schema value (declare w sub entries) t).1 := by
  have hvisits : Correspondence.keepingPlace.Related Correspondence.keepingPlace.Outcome
      (visitEntries s w sub value entries) (visitEntries s w sub value entries) :=
    Correspondence.keepingPlace.visitEntries
      (List.forall₂_same.mpr fun e _ => ⟨rfl, keeps_outcome keeps e.2⟩)
  have hplace := (hvisits t).1
  rw [matchObject_declare]
  split
  · next hplain =>
    refine judged_refuse (.object hk fun admits => ?_) t
    simp [admits.object, admits.notArray] at hplain
  · next hplain =>
    split
    · next hroom =>
      rw [Bool.and_eq_true, decide_eq_true_eq] at hroom
      exact judged_refuse (.object hk fun admits => absurd (admits.room hroom.1) (by omega)) t
    · next hroom =>
      have admits := admits_of_tests hplain hroom
      rcases hrun : visitEntries s w sub value entries t with ⟨out, u⟩
      rw [hrun] at hplace
      have hvisit := judged_visitEntries keeps hk admits hsub t
      rw [hrun] at hvisit
      rcases hvisit with ⟨hout, fits⟩ | ⟨hne, hj⟩
      · dsimp only at hout
        rw [hout] at hrun
        rw [bind_of_ok hrun, ← hplace.pathIn w.lane]
        dsimp only
        split
        · next hextra =>
          rw [Bool.and_eq_true, Bool.not_eq_true', all_declared_eq_false_iff] at hextra
          obtain ⟨hclosed, name, howned, hname⟩ := hextra
          exact judged_refuse (.undeclared hk admits fits hclosed howned hname) u
        · next hextra =>
          refine .passed ((matches_object_iff hk).mpr ⟨admits, fits, fun hclosed name hn hu => ?_⟩)
          refine hextra ?_
          rw [Bool.and_eq_true, Bool.not_eq_true', all_declared_eq_false_iff]
          exact ⟨hclosed, name, hn, hu⟩
      · cases out with
        | error failure =>
          rw [bind_of_error hrun]
          exact hj
        | ok found =>
          cases found with
          | none => exact absurd rfl hne
          | some mismatch =>
            rw [bind_of_ok hrun]
            exact hj

theorem judged_matchKind {schema value : Value} {k : Kind} (hk : s.heap.kind? schema = some k)
    {asked : Validation Bool} (hplace : ∀ t, (asked t).2.SamePlace t)
    (hasked : k = .predicate → ∀ t, s.Answers w schema value (asked t).1)
    (hsub : ∀ task ∈ s.tasks value k,
      ∀ t, Judged s w task.1 task.2 (t.pathIn w.lane) (sub task.1 task.2 t).1) (t : Trace) :
    Judged s w schema value (t.pathIn w.lane)
      (matchKind s w schema value asked sub k t).1 := by
  cases k with
  | atom name =>
    refine judged_verdict (fun h => .atom hk (beq_iff_eq.mp h)) (fun h => .atom hk ?_) t
    exact beq_eq_false_iff_ne.mp h
  | predicate =>
    have hp := hplace t
    have ha := hasked rfl t
    rw [matchKind]
    rcases hrun : asked t with ⟨failure | passed, u⟩ <;> rw [hrun] at hp ha
    · rw [bind_of_error hrun]
      exact .raised (.predicate hk ha)
    · rw [bind_of_ok hrun, ← hp.pathIn w.lane]
      exact judged_verdict (fun h => .predicate hk (h ▸ ha)) (fun h => .predicate hk (h ▸ ha)) u
  | pattern p =>
    refine judged_verdict (matches_pattern_iff hk).mpr (fun h => .pattern hk ?_) t
    intro text ht
    rw [ht, Option.map_some, Option.getD_some] at h
    exact h
  | array members =>
    rw [matchKind]
    cases hp : s.pairs members value with
    | none => exact judged_refuse (.array hk hp) t
    | some pairs =>
      refine judged_matchPairing keeps hk hp (fun pair hpair => hsub pair ?_) t
      rw [Setting.tasks, hp]
      exact hpair
  | union members =>
    refine judged_union keeps hk (fun member hm => hsub (member, value) ?_) t
    exact List.mem_map.mpr ⟨member, hm, rfl⟩
  | object entries =>
    exact judged_object keeps hk
      (fun e he read hr => hsub (e.2, read) (Setting.mem_tasks_of_read he hr)) t

end

end Conform
