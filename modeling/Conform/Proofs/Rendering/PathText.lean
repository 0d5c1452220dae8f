import Conform.Mismatch
import Conform.Proofs.Json.Atoms
/-!
# The text of a path

A step of a path is written as a name after a point, as a name in quotes and brackets or as a
number in brackets, with nothing between one step and the next. Its text still says where it ends:
a name after a point goes on as long as its characters belong to names, a name in quotes up to the
next quote, and a number up to the next bracket. So a text is the text of one path only. Main
statement: `path_eq_of_pathText_eq`.
-/

set_option autoImplicit false

namespace Conform

/-- An index, or a name that has no quote in it. -/
inductive PlainStep : Value → Prop
  | index (n : Int) : PlainStep (.int n)
  | name {s : String} (unquoted : '\'' ∉ s.toList) : PlainStep (.str s)

/-! ## The text of one step -/

def isNameChar (c : Char) : Bool := isIdentifier.startsName c || isDigit c

theorem isNameChar_of_isIdentifier {s : String} (hs : isIdentifier s = true) :
    ∀ c ∈ s.toList, isNameChar c = true := by
  unfold isIdentifier at hs
  split at hs
  · cases hs
  · next c cs heq =>
    obtain ⟨hc, hcs⟩ := Bool.and_eq_true_iff.mp hs
    have hfirst : isNameChar c = true := by rw [isNameChar, hc, Bool.true_or]
    rw [heq]
    exact List.forall_mem_cons.mpr ⟨hfirst, List.all_eq_true.mp hcs⟩

/-- The text of an index or a name. -/
def stepChars : Value → List Char
  | .int n => '[' :: ((toString n).toList ++ [']'])
  | .str s => if isIdentifier s then '.' :: s.toList else '[' :: '\'' :: (s.toList ++ ['\'', ']'])
  | _ => []

theorem stepChars_identifier {s : String} (hs : isIdentifier s = true) :
    stepChars (.str s) = '.' :: s.toList :=
  if_pos hs

theorem stepChars_quoted {s : String} (hs : isIdentifier s = false) :
    stepChars (.str s) = '[' :: '\'' :: (s.toList ++ ['\'', ']']) :=
  if_neg (by rw [hs]; exact Bool.false_ne_true)

theorem nameStep_toList (s : String) : (nameStep s s).toList = stepChars (.str s) := by
  unfold nameStep
  cases hs : isIdentifier s with
  | true =>
    rw [if_pos rfl, stepChars_identifier hs, String.toList_append]
    rfl
  | false =>
    rw [if_neg Bool.false_ne_true, stepChars_quoted hs]
    simp only [String.toList_append, List.append_assoc]
    rfl

/-! ## Where a step ends -/

/-- What may follow a step: nothing, or the next step. -/
def Opens (rest : List Char) : Prop :=
  ∀ c rest', rest = c :: rest' → c = '.' ∨ c = '['

theorem opens_stepChars {step : Value} (hstep : PlainStep step) (rest : List Char) :
    Opens (stepChars step ++ rest) := by
  intro c rest' heq
  cases hstep with
  | index n =>
    cases heq
    exact .inr rfl
  | @name s _ =>
    cases hs : isIdentifier s with
    | true =>
      rw [stepChars_identifier hs] at heq
      cases heq
      exact .inl rfl
    | false =>
      rw [stepChars_quoted hs] at heq
      cases heq
      exact .inr rfl

theorem Opens.not_nameChar {c : Char} {rest : List Char} (h : Opens (c :: rest)) :
    isNameChar c = false := by
  rcases h c rest rfl with rfl | rfl <;> decide

section

variable {p : Char → Bool} {u v r r' : List Char}

theorem takeWhile_of_stop (hu : ∀ c ∈ u, p c = true) (hr : ∀ c cs, r = c :: cs → p c = false) :
    (u ++ r).takeWhile p = u ∧ (u ++ r).dropWhile p = r := by
  rw [List.takeWhile_append_of_pos hu, List.dropWhile_append_of_pos hu]
  cases r with
  | nil => simp
  | cons c cs => simp [hr c cs rfl]

/-- Two texts of which the first parts go on as long as their characters are of a kind. -/
theorem append_inj_of_stop (hu : ∀ c ∈ u, p c = true) (hv : ∀ c ∈ v, p c = true)
    (hr : ∀ c cs, r = c :: cs → p c = false) (hr' : ∀ c cs, r' = c :: cs → p c = false)
    (heq : u ++ r = v ++ r') : u = v ∧ r = r' := by
  obtain ⟨hut, hud⟩ := takeWhile_of_stop hu hr
  obtain ⟨hvt, hvd⟩ := takeWhile_of_stop hv hr'
  rw [heq] at hut hud
  exact ⟨hut.symm.trans hvt, hud.symm.trans hvd⟩

theorem index_inj {n m : Int}
    (heq : (toString n).toList ++ ']' :: r = (toString m).toList ++ ']' :: r') :
    n = m ∧ r = r' := by
  have unclosed (k : Int) : ∀ c ∈ (toString k).toList, (c != ']') = true := by
    intro c hc
    have hne : c ≠ ']' := fun h => Json.not_closing_of_mem_toString (h ▸ hc)
    simpa using hne
  have closes (rest : List Char) : ∀ c cs, ']' :: rest = c :: cs → (c != ']') = false := by
    intro c cs h
    cases h
    rfl
  obtain ⟨hdigits, hrest⟩ :=
    append_inj_of_stop (unclosed n) (unclosed m) (closes _) (closes _) heq
  cases hrest
  exact ⟨Json.toString_int_inj hdigits, rfl⟩

theorem quoted_inj {s t : String} (hs : '\'' ∉ s.toList) (ht : '\'' ∉ t.toList)
    (heq : s.toList ++ '\'' :: ']' :: r = t.toList ++ '\'' :: ']' :: r') : s = t ∧ r = r' := by
  have unquoted {name : String} (hname : '\'' ∉ name.toList) :
      ∀ c ∈ name.toList, (c != '\'') = true := by
    intro c hc
    have hne : c ≠ '\'' := fun h => hname (h ▸ hc)
    simpa using hne
  have stops (rest : List Char) : ∀ c cs, '\'' :: rest = c :: cs → (c != '\'') = false := by
    intro c cs h
    cases h
    rfl
  obtain ⟨hname, hrest⟩ :=
    append_inj_of_stop (unquoted hs) (unquoted ht) (stops _) (stops _) heq
  cases hrest
  exact ⟨String.toList_inj.mp hname, rfl⟩

theorem identifier_inj {s t : String} (hs : isIdentifier s = true) (ht : isIdentifier t = true)
    (hr : Opens r) (hr' : Opens r') (heq : s.toList ++ r = t.toList ++ r') : s = t ∧ r = r' := by
  obtain ⟨hname, hrest⟩ :=
    append_inj_of_stop (isNameChar_of_isIdentifier hs) (isNameChar_of_isIdentifier ht)
      (fun c cs h => (h ▸ hr).not_nameChar) (fun c cs h => (h ▸ hr').not_nameChar) heq
  exact ⟨String.toList_inj.mp hname, hrest⟩

/-- No index starts with a quote. -/
theorem index_ne_quoted {n : Int} : (toString n).toList ++ r ≠ '\'' :: r' := by
  obtain ⟨c, cs, hcs, hc⟩ := Json.toString_eq_cons n
  rw [hcs, List.cons_append]
  intro heq
  cases heq
  rcases hc with hc | hc
  · exact absurd hc (by decide)
  · exact absurd hc (by decide)

theorem index_ne_name (n : Int) (s : String) :
    stepChars (.int n) ++ r ≠ stepChars (.str s) ++ r' := by
  intro heq
  cases hs : isIdentifier s with
  | true =>
    rw [stepChars_identifier hs] at heq
    cases heq
  | false =>
    have htail : (toString n).toList ++ ']' :: r = '\'' :: (s.toList ++ '\'' :: ']' :: r') := by
      simpa [stepChars, hs] using heq
    exact index_ne_quoted htail

/-- Names after points and names in quotes start differently. -/
theorem identifier_ne_quoted {s t : String} (hs : isIdentifier s = true)
    (ht : isIdentifier t = false) : stepChars (.str s) ++ r ≠ stepChars (.str t) ++ r' := by
  rw [stepChars_identifier hs, stepChars_quoted ht]
  intro heq
  cases heq

theorem name_inj {s t : String} (hs : '\'' ∉ s.toList) (ht : '\'' ∉ t.toList) (hr : Opens r)
    (hr' : Opens r') (heq : stepChars (.str s) ++ r = stepChars (.str t) ++ r') :
    s = t ∧ r = r' := by
  cases hi : isIdentifier s with
  | true =>
    cases hj : isIdentifier t with
    | true =>
      rw [stepChars_identifier hi, stepChars_identifier hj] at heq
      exact identifier_inj hi hj hr hr' (List.cons.inj heq).2
    | false => exact absurd heq (identifier_ne_quoted hi hj)
  | false =>
    cases hj : isIdentifier t with
    | true => exact absurd heq.symm (identifier_ne_quoted hj hi)
    | false =>
      have htail : s.toList ++ '\'' :: ']' :: r = t.toList ++ '\'' :: ']' :: r' := by
        simpa [stepChars, hi, hj] using heq
      exact quoted_inj hs ht htail

end

/-- A step and what follows it can be told from their text. -/
theorem step_inj {a b : Value} (ha : PlainStep a) (hb : PlainStep b) {r r' : List Char}
    (hr : Opens r) (hr' : Opens r') (heq : stepChars a ++ r = stepChars b ++ r') :
    a = b ∧ r = r' := by
  cases ha with
  | index n =>
    cases hb with
    | index m =>
      have htail : (toString n).toList ++ ']' :: r = (toString m).toList ++ ']' :: r' := by
        simpa [stepChars] using heq
      obtain ⟨rfl, hrest⟩ := index_inj htail
      exact ⟨rfl, hrest⟩
    | name _ => exact absurd heq (index_ne_name n _)
  | name hs =>
    cases hb with
    | index m => exact absurd heq.symm (index_ne_name m _)
    | name ht =>
      obtain ⟨rfl, hrest⟩ := name_inj hs ht hr hr' heq
      exact ⟨rfl, hrest⟩

/-! ## The text of a path -/

section

variable {h : Heap}

theorem stepsWith_cons (onLink : Nat → Nat → String) {step : Value} (hstep : PlainStep step)
    (path : List Value) :
    (stepsWith h onLink (step :: path)).toList
      = stepChars step ++ (stepsWith h onLink path).toList := by
  cases hstep with
  | index n =>
    have htext : textWith h onLink (.int n) = toString n := rfl
    simp only [stepsWith, htext, String.toList_append, stepChars, List.cons_append,
      List.append_assoc, List.nil_append]
    rfl
  | name _ => rw [stepsWith, String.toList_append, nameStep_toList]

theorem opens_stepsWith (onLink : Nat → Nat → String) {path : List Value}
    (hpath : ∀ step ∈ path, PlainStep step) : Opens (stepsWith h onLink path).toList := by
  cases path with
  | nil => exact nofun
  | cons step path =>
    have hstep : PlainStep step := hpath step (List.mem_cons_self ..)
    rw [stepsWith_cons onLink hstep]
    exact opens_stepChars hstep _

theorem stepChars_ne_nil {step : Value} (hstep : PlainStep step) (rest : List Char) :
    stepChars step ++ rest ≠ [] := by
  cases hstep with
  | index n => nofun
  | @name s _ => cases hs : isIdentifier s <;> simp [stepChars, hs]

/-- By induction on the first path; the texts part where the paths do. -/
theorem stepsWith_inj {h' : Heap} {onLink onLink' : Nat → Nat → String} {p q : List Value}
    (hp : ∀ step ∈ p, PlainStep step) (hq : ∀ step ∈ q, PlainStep step)
    (heq : (stepsWith h onLink p).toList = (stepsWith h' onLink' q).toList) : p = q := by
  induction p generalizing q with
  | nil =>
    cases q with
    | nil => rfl
    | cons b q =>
      have hb : PlainStep b := hq b (List.mem_cons_self ..)
      rw [stepsWith_cons onLink' hb] at heq
      exact absurd heq.symm (stepChars_ne_nil hb _)
  | cons a p ih =>
    obtain ⟨ha, hpath⟩ := List.forall_mem_cons.mp hp
    cases q with
    | nil =>
      rw [stepsWith_cons onLink ha] at heq
      exact absurd heq (stepChars_ne_nil ha _)
    | cons b q =>
      obtain ⟨hb, hpath'⟩ := List.forall_mem_cons.mp hq
      rw [stepsWith_cons onLink ha, stepsWith_cons onLink' hb] at heq
      have hopens : Opens (stepsWith h onLink p).toList := opens_stepsWith onLink hpath
      have hopens' : Opens (stepsWith h' onLink' q).toList := opens_stepsWith onLink' hpath'
      obtain ⟨hstep, hrest⟩ := step_inj ha hb hopens hopens' heq
      rw [hstep, ih hpath hpath' hrest]

end

/-- Mismatches whose paths are written alike are at one place: indices and names without quotes,
in whatever number and order, can be told from the text of the path. -/
theorem path_eq_of_pathText_eq {h h' : Heap} {m m' : Mismatch}
    (hm : ∀ step ∈ m.path, PlainStep step) (hm' : ∀ step ∈ m'.path, PlainStep step)
    (heq : m.pathText h = m'.pathText h') : m.path = m'.path := by
  have htail : ("root" ++ stepsWith h h.renderLink m.path).toList
      = ("root" ++ stepsWith h' h'.renderLink m'.path).toList := congrArg String.toList heq
  rw [String.toList_append, String.toList_append] at htail
  exact stepsWith_inj hm hm' (List.append_cancel_left htail)

/-- Names that look like steps themselves, and one that is empty. -/
def awkwardPath : List Value := [.str "a.b[1]", .int (-2), .str "", .str "é\n", .str "_x1"]

theorem awkwardPath_plain : ∀ step ∈ awkwardPath, PlainStep step := by
  simp only [awkwardPath, List.forall_mem_cons]
  exact ⟨.name (by decide), .index (-2), .name (by decide), .name (by decide), .name (by decide),
    nofun⟩

theorem path_eq_of_pathText_eq_awkward :
    (∀ step ∈ awkwardPath, PlainStep step) ∧
      Heap.empty.pathText awkwardPath = "root['a.b[1]'][-2]['']['é\n']._x1" ∧
      (Mismatch.mk awkwardPath .null (.str "string")).path
        = (Mismatch.mk awkwardPath (.int 5) (.str "object")).path := by
  have heq : (Mismatch.mk awkwardPath .null (.str "string")).pathText Heap.empty
      = (Mismatch.mk awkwardPath (.int 5) (.str "object")).pathText Heap.empty := rfl
  exact ⟨awkwardPath_plain, by decide,
    path_eq_of_pathText_eq awkwardPath_plain awkwardPath_plain heq⟩

end Conform
