import Conform.Options
import Conform.Proofs.Value.Order
import Conform.Proofs.Value.Owned
/-!
# Options given as a mapping

A mapping is accepted just if it names nothing but the option and gives a truth value; the keys of a
mapping differ, so that it has one entry or none. A mapping with other names is refused for all of
these at once. They are sorted for the message, and where they cannot be sorted the complaint is
about two that do not compare. Main statement: `resolve_mapping`.
-/

set_option autoImplicit false

namespace Conform

variable {h : Heap} {entries : List (Value × Value)}

/-- The names of a mapping that are not the name of an option. -/
def unknownNames (h : Heap) (entries : List (Value × Value)) : List Value :=
  (entries.map Prod.fst).filter fun name => !h.equal name (.str Options.optionName)

/-- A mapping that names options only, and gives them truth values. -/
structure NamesOptions (h : Heap) (entries : List (Value × Value)) : Prop where
  known : ∀ e ∈ entries, h.equal e.1 (.str Options.optionName) = true
  flags : ∀ e ∈ entries, ∃ b, e.2 = .bool b

/-- Why a mapping is refused. -/
inductive Refused (h : Heap) (entries : List (Value × Value)) : Failure → Prop
  /-- It has unknown names, and these are listed. -/
  | unknown {names : List Value} (some : unknownNames h entries ≠ [])
      (perm : names.Perm (unknownNames h entries)) : Refused h entries (.unknownOptions names)
  /-- It names the option, and what it gives is no truth value. -/
  | nonBoolean {name value : Value} (only : entries = [(name, value)])
      (known : unknownNames h entries = []) (flag : ∀ b, value ≠ .bool b) :
      Refused h entries (.nonBooleanOptions [name])
  /-- It has unknown names, and not all of these compare. -/
  | unordered {left right : Value} (apart : ¬ SameFamily left right)
      (incomparable : ¬ (unknownNames h entries).Pairwise h.Comparable) :
      Refused h entries (.unordered left right)

theorem unknownNames_eq_nil_iff :
    unknownNames h entries = [] ↔
      ∀ e ∈ entries, h.equal e.1 (.str Options.optionName) = true := by
  rw [unknownNames, List.filter_eq_nil_iff]
  simp

/-- Of two keys, one at most is the name of the option. -/
theorem nil_or_singleton_of_known (keyed : Keyed h (entries.map Prod.fst))
    (known : unknownNames h entries = []) : entries = [] ∨ ∃ e, entries = [e] := by
  have hall : ∀ name ∈ entries.map Prod.fst, h.equal name (.str Options.optionName) = true := by
    rintro name hname
    obtain ⟨e, he, rfl⟩ := List.mem_map.mp hname
    exact unknownNames_eq_nil_iff.mp known e he
  have hone := keyed.onLeft (.str Options.optionName)
  rw [List.countP_eq_length.mpr hall, List.length_map] at hone
  match entries, hone with
  | [], _ => exact .inl rfl
  | [e], _ => exact .inr ⟨e, rfl⟩

/-! ## The cases -/

theorem resolve_eq_ofEntries {m : Value} (hm : h.entries? m = some entries) :
    Options.resolve h m = Options.ofEntries h entries := by
  unfold Options.resolve
  split
  · cases hm
  · cases hm
  · rw [hm]

theorem ofEntries_of_unknown (unknown : unknownNames h entries ≠ []) :
    Options.ofEntries h entries =
      h.sorted (unknownNames h entries) >>= fun names => .error (.unknownOptions names) := by
  have hsome : (unknownNames h entries).isEmpty = false := List.isEmpty_eq_false_iff.mpr unknown
  unfold Options.ofEntries
  dsimp only
  rw [← unknownNames, hsome]
  cases h.sorted (unknownNames h entries) <;> rfl

theorem ofEntries_nil : Options.ofEntries h [] = .ok Options.default := rfl

theorem ofEntries_flag {name : Value} {b : Bool} (known : unknownNames h [(name, .bool b)] = []) :
    Options.ofEntries h [(name, .bool b)] = .ok ⟨.bool b⟩ := by
  unfold Options.ofEntries
  dsimp only
  rw [← unknownNames, known]
  rfl

theorem ofEntries_nonBoolean {name value : Value} (known : unknownNames h [(name, value)] = [])
    (flag : ∀ b, value ≠ .bool b) :
    Options.ofEntries h [(name, value)] = .error (.nonBooleanOptions [name]) := by
  unfold Options.ofEntries
  dsimp only
  rw [← unknownNames, known]
  cases value with
  | bool b => exact absurd rfl (flag b)
  | _ => rfl

theorem refused_of_ofEntries (keyed : Keyed h (entries.map Prod.fst)) {failure : Failure}
    (hfails : Options.ofEntries h entries = .error failure) : Refused h entries failure := by
  by_cases known : unknownNames h entries = []
  · rcases nil_or_singleton_of_known keyed known with rfl | ⟨⟨name, value⟩, rfl⟩
    · cases hfails
    · have flag : ∀ b, value ≠ .bool b := by
        rintro b rfl
        cases (ofEntries_flag known).symm.trans hfails
      cases (ofEntries_nonBoolean known flag).symm.trans hfails
      exact .nonBoolean rfl known flag
  · rw [ofEntries_of_unknown known] at hfails
    rcases error_or_of_bind_eq_error hfails with hsort | ⟨names, hsort, hfails⟩
    · obtain ⟨left, right, rfl, apart⟩ := unordered_of_sorted hsort
      refine .unordered apart fun hall => ?_
      obtain ⟨names, hnames⟩ := exists_sorted hall
      cases hnames.symm.trans hsort
    · cases hfails
      exact .unknown known (perm_of_sorted hsort)

theorem ofEntries_of_namesOptions (keyed : Keyed h (entries.map Prod.fst))
    (hm : NamesOptions h entries) : ∃ o, Options.ofEntries h entries = .ok o := by
  have known : unknownNames h entries = [] := unknownNames_eq_nil_iff.mpr hm.known
  rcases nil_or_singleton_of_known keyed known with rfl | ⟨⟨name, value⟩, rfl⟩
  · exact ⟨_, ofEntries_nil⟩
  · obtain ⟨b, rfl⟩ := hm.flags (name, value) (List.mem_singleton_self _)
    exact ⟨_, ofEntries_flag known⟩

/-- Options that are accepted are those that are given. -/
theorem namesOptions_of_ofEntries (keyed : Keyed h (entries.map Prod.fst)) {o : Options}
    (hok : Options.ofEntries h entries = .ok o) :
    NamesOptions h entries ∧ (entries = [] → o.noExcessProps = .bool false) ∧
      ∀ e ∈ entries, e.2 = o.noExcessProps := by
  have known : unknownNames h entries = [] := by
    by_contra unknown
    rw [ofEntries_of_unknown unknown] at hok
    obtain ⟨names, -, hfails⟩ := exists_of_bind_eq_ok hok
    cases hfails
  have hnamed := unknownNames_eq_nil_iff.mp known
  rcases nil_or_singleton_of_known keyed known with rfl | ⟨⟨name, value⟩, rfl⟩
  · cases hok
    exact ⟨⟨hnamed, nofun⟩, fun _ => rfl, nofun⟩
  · have flag : ∃ b, value = .bool b := by
      by_contra hnot
      cases (ofEntries_nonBoolean known fun b hb => hnot ⟨b, hb⟩).symm.trans hok
    obtain ⟨b, rfl⟩ := flag
    cases (ofEntries_flag known).symm.trans hok
    refine ⟨⟨hnamed, fun e he => ?_⟩, nofun, fun e he => ?_⟩
    all_goals cases List.mem_singleton.mp he
    · exact ⟨b, rfl⟩
    · rfl

theorem ofEntries_unordered_iff (keyed : Keyed h (entries.map Prod.fst))
    (tupleless : ∀ name ∈ unknownNames h entries, ¬ name.IsTuple) :
    (∃ left right, Options.ofEntries h entries = .error (.unordered left right)) ↔
      ¬ (unknownNames h entries).Pairwise SameFamily := by
  rw [← exists_sorted_iff (h := h) tupleless]
  constructor
  · rintro ⟨left, right, hfails⟩ ⟨names, hnames⟩
    have unknown : unknownNames h entries ≠ [] := by
      intro known
      cases refused_of_ofEntries keyed hfails with
      | unordered _ incomparable => exact incomparable (known ▸ .nil)
    rw [ofEntries_of_unknown unknown, hnames] at hfails
    cases hfails
  · intro hunsorted
    have unknown : unknownNames h entries ≠ [] := by
      intro known
      exact hunsorted (known ▸ ⟨[], rfl⟩)
    cases hsort : h.sorted (unknownNames h entries) with
    | ok names => exact absurd ⟨names, hsort⟩ hunsorted
    | error failure =>
      obtain ⟨left, right, rfl, -⟩ := unordered_of_sorted hsort
      exact ⟨left, right, by rw [ofEntries_of_unknown unknown, hsort]; rfl⟩

/-- A mapping gives options just if it names options and gives truth values, and these are then the
options; any other is refused. What it is refused for are the names that are unknown, or else the
value that is no truth value, except where names that are unknown do not compare. If they are no
tuples, this is so just if they are not all of one family. -/
theorem resolve_mapping {m : Value} (hm : h.entries? m = some entries)
    (keyed : Keyed h (entries.map Prod.fst)) :
    ((∃ o, Options.resolve h m = .ok o) ↔ NamesOptions h entries) ∧
      (∀ o, Options.resolve h m = .ok o →
        (entries = [] → o.noExcessProps = .bool false) ∧ ∀ e ∈ entries, e.2 = o.noExcessProps) ∧
      (∀ failure, Options.resolve h m = .error failure → Refused h entries failure) ∧
      ((∀ name ∈ unknownNames h entries, ¬ name.IsTuple) →
        ((∃ left right, Options.resolve h m = .error (.unordered left right)) ↔
          ¬ (unknownNames h entries).Pairwise SameFamily)) := by
  rw [resolve_eq_ofEntries hm]
  refine ⟨⟨?accepted, ofEntries_of_namesOptions keyed⟩, ?flag, fun failure => ?refused, ?unordered⟩
  case accepted =>
    rintro ⟨o, hok⟩
    exact (namesOptions_of_ofEntries keyed hok).1
  case flag => exact fun o hok => (namesOptions_of_ofEntries keyed hok).2
  case refused => exact refused_of_ofEntries keyed
  case unordered => exact ofEntries_unordered_iff keyed

/-! ### Examples -/

/-- A mapping with the option and two names that are unknown. -/
def strayEntries : List (Value × Value) :=
  [(.str "strict", .int 1), (.str "no_excess_props", .bool true), (.str "loose", .bool false)]

theorem resolve_mapping_stray :
    Heap.empty.entries? (.mapping strayEntries) = some strayEntries ∧
      Keyed Heap.empty (strayEntries.map Prod.fst) ∧
      ((∃ o, Options.resolve Heap.empty (.mapping strayEntries) = .ok o) ↔
        NamesOptions Heap.empty strayEntries) ∧
      (∀ o, Options.resolve Heap.empty (.mapping strayEntries) = .ok o →
        (strayEntries = [] → o.noExcessProps = .bool false) ∧
          ∀ e ∈ strayEntries, e.2 = o.noExcessProps) ∧
      (∀ failure, Options.resolve Heap.empty (.mapping strayEntries) = .error failure →
        Refused Heap.empty strayEntries failure) ∧
      ((∀ name ∈ unknownNames Heap.empty strayEntries, ¬ name.IsTuple) →
        ((∃ left right,
            Options.resolve Heap.empty (.mapping strayEntries) = .error (.unordered left right)) ↔
          ¬ (unknownNames Heap.empty strayEntries).Pairwise SameFamily)) := by
  have different : ["strict", "no_excess_props", "loose"].Nodup := by decide
  have keyed : Keyed Heap.empty (strayEntries.map Prod.fst) := keyed_texts Heap.empty different
  exact ⟨rfl, keyed, resolve_mapping rfl keyed⟩

/-- A mapping with a number and a tuple for names. -/
def mixedEntries : List (Value × Value) :=
  [(.int 1, .bool true), (.tuple [.int 2], .bool true)]

/-- Neither name is that of the option, and the mapping is not refused for them: the complaint is
that one does not compare with the other. -/
theorem mixed_names_unordered :
    Heap.empty.ofPairs mixedEntries = mixedEntries ∧
      unknownNames Heap.empty mixedEntries = mixedEntries.map Prod.fst ∧
      ¬ NamesOptions Heap.empty mixedEntries ∧
      Options.resolve Heap.empty (.mapping mixedEntries) =
        .error (.unordered (.tuple [.int 2]) (.int 1)) := by
  have hunknown : unknownNames Heap.empty mixedEntries = mixedEntries.map Prod.fst := rfl
  refine ⟨rfl, hunknown, fun hnamed => ?_, rfl⟩
  cases hunknown.symm.trans (unknownNames_eq_nil_iff.mpr hnamed.known)

end Conform
