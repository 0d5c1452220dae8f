import Conform.Proofs.Matching.Relation
/-!
# The walk to the first failure

A failing walk goes through a schema and a value together, from each part that fails to the part
of it that fails first, down to a node that fails by itself; a union fails as a whole. A schema
and a value have a failing walk at most where they do not match, and never two of them.
-/

set_option autoImplicit false

namespace Conform

variable {s : Setting} {w : Validator}

/-! ## Steps -/

/-- Matching goes from a schema and a value one step down to a part and what it is about: all
earlier items or declared properties match. -/
inductive Enters (s : Setting) (w : Validator) :
    (schema value step part inner : Value) → Prop
  /-- To an item and its entry. -/
  | item {schema value part inner : Value} {members : List Value} {pairs : List (Value × Value)}
      (i : Nat) (kind : s.heap.kind? schema = some (.array members))
      (fits : s.pairs members value = some pairs) (here : pairs[i]? = some (part, inner))
      (earlier : ∀ j pair, j < i → pairs[j]? = some pair → Matches s w pair.1 pair.2) :
      Enters s w schema value (.int i) part inner
  /-- To what is read under a declared name and the schema declared for it. -/
  | property {schema value name part inner : Value} {entries : List (Value × Value)} (i : Nat)
      (kind : s.heap.kind? schema = some (.object entries)) (admits : s.Admits w entries value)
      (here : entries[i]? = some (name, part))
      (earlier : ∀ j e, j < i → entries[j]? = some e → Fits s w value e)
      (read : s.heap.property value name = .ok inner) : Enters s w schema value name part inner

/-- A node fails by itself, not because of one of the parts that a walk enters. -/
inductive Fails (s : Setting) (w : Validator) : (schema value : Value) → Prop
  | atom {schema value : Value} {name : String} (kind : s.heap.kind? schema = some (.atom name))
      (tag : value.typeof ≠ name) : Fails s w schema value
  | predicate {schema value : Value} (kind : s.heap.kind? schema = some .predicate)
      (denies : s.Answers w schema value (.ok false)) : Fails s w schema value
  | pattern {schema value : Value} {p : Pattern} (kind : s.heap.kind? schema = some (.pattern p))
      (missed : ∀ text, value.text? = some text → p.search text = false) :
      Fails s w schema value
  /-- The value is no array, or one of a length that does not fit. -/
  | array {schema value : Value} {members : List Value}
      (kind : s.heap.kind? schema = some (.array members))
      (misfit : s.pairs members value = none) : Fails s w schema value
  | union {schema value : Value} {members : List Value}
      (kind : s.heap.kind? schema = some (.union members))
      (none : ∀ member ∈ members, ¬ Matches s w member value) : Fails s w schema value
  | object {schema value : Value} {entries : List (Value × Value)}
      (kind : s.heap.kind? schema = some (.object entries))
      (refused : ¬ s.Admits w entries value) : Fails s w schema value
  /-- Every declared property matches, but the value owns one that is not declared. -/
  | undeclared {schema value name : Value} {entries : List (Value × Value)}
      (kind : s.heap.kind? schema = some (.object entries)) (admits : s.Admits w entries value)
      (fits : ∀ e ∈ entries, Fits s w value e) (closed : w.closed = true)
      (owned : name ∈ s.heap.ownNames value) (extra : s.heap.Undeclared entries name) :
      Fails s w schema value

/-- The walk from a schema and a value along a path to the node that fails, which expects
`expected` and finds `actual`. -/
inductive FailingWalk (s : Setting) (w : Validator) :
    (schema value : Value) → (path : List Value) → (expected actual : Value) → Prop
  | here {schema value : Value} (fails : Fails s w schema value) :
      FailingWalk s w schema value [] schema value
  | down {schema value step part inner expected actual : Value} {path : List Value}
      (enters : Enters s w schema value step part inner)
      (rest : FailingWalk s w part inner path expected actual) :
      FailingWalk s w schema value (step :: path) expected actual

/-! ## A failing walk excludes a match -/

theorem not_matches_of_fails {schema value : Value} (h : Fails s w schema value) :
    ¬ Matches s w schema value := by
  intro hm
  cases h with
  | atom kind tag => exact tag ((matches_atom_iff kind).mp hm)
  | predicate kind denies =>
    cases answers_unique denies ((matches_predicate_iff kind).mp hm)
  | pattern kind missed =>
    have hp := (matches_pattern_iff kind).mp hm
    cases ht : value.text? with
    | none => rw [ht] at hp; cases hp
    | some text =>
      rw [ht, Option.map_some, Option.getD_some, missed text ht] at hp
      cases hp
  | array kind misfit =>
    obtain ⟨pairs, hp, -⟩ := (matches_array_iff kind).mp hm
    cases misfit.symm.trans hp
  | union kind none =>
    obtain ⟨member, hmem, h⟩ := (matches_union_iff kind).mp hm
    exact none member hmem h
  | object kind refused => exact refused ((matches_object_iff kind).mp hm).1
  | undeclared kind admits fits closed owned extra =>
    exact ((matches_object_iff kind).mp hm).2.2 closed _ owned extra

theorem matches_part_of_matches {schema value step part inner : Value}
    (h : Enters s w schema value step part inner) (hm : Matches s w schema value) :
    Matches s w part inner := by
  cases h with
  | item i kind fits here earlier =>
    obtain ⟨pairs, hp, each⟩ := (matches_array_iff kind).mp hm
    cases fits.symm.trans hp
    exact each (part, inner) (List.mem_of_getElem? here)
  | property i kind admits here earlier read =>
    obtain ⟨-, fits, -⟩ := (matches_object_iff kind).mp hm
    obtain ⟨read', hr, h⟩ := fits (step, part) (List.mem_of_getElem? here)
    cases hr.symm.trans read
    exact h

theorem not_matches_of_failingWalk {schema value expected actual : Value} {path : List Value}
    (h : FailingWalk s w schema value path expected actual) : ¬ Matches s w schema value := by
  induction h with
  | here fails => exact not_matches_of_fails fails
  | down enters rest ih => exact fun hm => ih (matches_part_of_matches enters hm)

/-! ## A failing walk is the only one -/

/-- A node that fails by itself has no part that fails. -/
theorem matches_part_of_fails {schema value step part inner : Value}
    (h : Enters s w schema value step part inner) (hf : Fails s w schema value) :
    Matches s w part inner := by
  cases h with
  | item i kind fits here earlier =>
    cases hf with
    | array kind' misfit =>
      cases kind'.symm.trans kind
      cases misfit.symm.trans fits
    | _ => simp_all
  | property i kind admits here earlier read =>
    cases hf with
    | object kind' refused =>
      cases kind'.symm.trans kind
      exact absurd admits refused
    | undeclared kind' admits' fits closed owned extra =>
      cases kind'.symm.trans kind
      obtain ⟨read', hr, h⟩ := fits (step, part) (List.mem_of_getElem? here)
      cases hr.symm.trans read
      exact h
    | _ => simp_all

/-- Of two steps from the same place, one comes first and its part matches, or they are one. -/
theorem enters_trichotomy {schema value step part inner step' part' inner' : Value}
    (h : Enters s w schema value step part inner)
    (h' : Enters s w schema value step' part' inner') :
    (step = step' ∧ part = part' ∧ inner = inner') ∨ Matches s w part inner ∨
      Matches s w part' inner' := by
  cases h with
  | item i kind fits here earlier =>
    cases h' with
    | item i' kind' fits' here' earlier' =>
      cases kind.symm.trans kind'
      cases fits.symm.trans fits'
      rcases Nat.lt_trichotomy i i' with hlt | rfl | hlt
      · exact .inr (.inl (earlier' i _ hlt here))
      · cases here.symm.trans here'
        exact .inl ⟨rfl, rfl, rfl⟩
      · exact .inr (.inr (earlier i' _ hlt here'))
    | property _ kind' => cases kind.symm.trans kind'
  | property i kind admits here earlier read =>
    cases h' with
    | item _ kind' => cases kind.symm.trans kind'
    | property i' kind' admits' here' earlier' read' =>
      cases kind.symm.trans kind'
      rcases Nat.lt_trichotomy i i' with hlt | rfl | hlt
      · obtain ⟨x, hx, hm⟩ := earlier' i _ hlt here
        cases hx.symm.trans read
        exact .inr (.inl hm)
      · cases here.symm.trans here'
        cases read.symm.trans read'
        exact .inl ⟨rfl, rfl, rfl⟩
      · obtain ⟨x, hx, hm⟩ := earlier i' _ hlt here'
        cases hx.symm.trans read'
        exact .inr (.inr hm)

theorem eq_of_failingWalk {schema value expected actual expected' actual' : Value}
    {path path' : List Value} (h : FailingWalk s w schema value path expected actual)
    (h' : FailingWalk s w schema value path' expected' actual') :
    path = path' ∧ expected = expected' ∧ actual = actual' := by
  induction h generalizing path' with
  | here fails =>
    cases h' with
    | here fails' => exact ⟨rfl, rfl, rfl⟩
    | down enters rest =>
      exact absurd (matches_part_of_fails enters fails) (not_matches_of_failingWalk rest)
  | down enters rest ih =>
    cases h' with
    | here fails =>
      exact absurd (matches_part_of_fails enters fails) (not_matches_of_failingWalk rest)
    | down enters' rest' =>
      rcases enters_trichotomy enters enters' with ⟨rfl, rfl, rfl⟩ | hm | hm
      · obtain ⟨hpath, hrest⟩ := ih rest'
        exact ⟨congrArg _ hpath, hrest⟩
      · exact absurd hm (not_matches_of_failingWalk rest)
      · exact absurd hm (not_matches_of_failingWalk rest')

end Conform
