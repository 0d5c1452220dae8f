import Conform.Proofs.Matching.Undeclared
import Conform.Proofs.Schema.Nesting
/-!
# Validations that end

Matching goes on to parts of the schema, to parts of the value, or to both. Only unions and absent
properties leave the value as it is or put nothing in its place, and only shared lists and mappings
lead back to a schema from inside it. So a validation ends if the schema does not contain itself,
whatever the value is, and if the value is finite data, whatever the schema is. A cyclic schema
goes round a cyclic value for ever. Main statement: `validate_ends`.
-/

set_option autoImplicit false

namespace Conform

open Validation

/-! ## Computations that end -/

/-- A computation that is not cut short, wherever it starts. -/
def Validation.Ends {α : Type} (x : Validation α) : Prop := ∀ t, (x t).1 ≠ .error .endless

namespace Validation.Ends

variable {α β : Type}

theorem pure (a : α) : (Pure.pure a : Validation α).Ends := fun _ => nofun

theorem fail {failure : Failure} (h : failure ≠ .endless) :
    (Validation.fail failure : Validation α).Ends :=
  fun _ ha => h (Except.error.inj ha)

theorem lift {result : Except Failure α} (h : result ≠ .error .endless) :
    (Validation.lift result).Ends := by
  cases result with
  | ok a => exact .pure a
  | error failure => exact .fail fun hf => h (congrArg Except.error hf)

theorem bind {x : Validation α} {f : α → Validation β} (hx : x.Ends) (hf : ∀ a, (f a).Ends) :
    (x >>= f).Ends := by
  intro t
  have hxt := hx t
  rcases hrun : x t with ⟨failure | a, u⟩
  · rw [bind_of_error hrun]
    rw [hrun] at hxt
    exact fun h => hxt (congrArg Except.error (Except.error.inj h))
  · rw [bind_of_ok hrun]
    exact hf a u

theorem descend {x : Validation α} (lane : Lane) (step : Value) (hx : x.Ends) :
    (Validation.descend lane step x).Ends :=
  fun t => hx (t.push lane step)

theorem findSomeM? {f : α → Validation (Option β)} {l : List α} (h : ∀ a ∈ l, (f a).Ends) :
    (l.findSomeM? f).Ends := by
  induction l with
  | nil => exact .pure none
  | cons a l ih =>
    rw [List.findSomeM?_cons]
    refine .bind (h a (List.mem_cons_self ..)) fun found => ?_
    cases found with
    | some b => exact .pure (some b)
    | none => exact ih fun b hb => h b (List.mem_cons_of_mem a hb)

theorem refused (w : Validator) (known value : Value) : (some <$> w.refuse known value).Ends :=
  fun _ => nofun

theorem verdict (w : Validator) (known value : Value) (passed : Bool) :
    (w.verdict known value passed).Ends := by
  cases passed with
  | true => exact .pure none
  | false => exact .refused w known value

end Validation.Ends

/-! ## Readings and built-in predicates -/

theorem bind_ne_error {ε α β : Type} {x : Except ε α} {f : α → Except ε β} {e : ε}
    (hx : x ≠ .error e) (hf : ∀ a, f a ≠ .error e) : x >>= f ≠ .error e := by
  cases x with
  | ok a => exact hf a
  | error e' => exact fun he => hx (congrArg Except.error (Except.error.inj he))

theorem map_ne_error {ε α β : Type} {x : Except ε α} {e : ε} (h : x ≠ .error e) (f : α → β) :
    x.map f ≠ .error e := by
  cases x with
  | ok a => nofun
  | error e' => exact fun he => h (congrArg Except.error (Except.error.inj he))

theorem attribute?_ne_endless (v : Value) (name : String) :
    v.attribute? name ≠ .error .endless := by
  cases v with
  | object handle content =>
    cases content with
    | record className own inherited failing =>
      show (Object.record className own inherited failing).attribute? name ≠ .error .endless
      rw [Object.attribute?]
      split
      · split <;> nofun
      · nofun
    | _ => nofun
  | _ => nofun

/-- Reading a property fails or gives something; it does not search. -/
theorem property_ne_endless (h : Heap) (v name : Value) : h.property v name ≠ .error .endless := by
  have keyed (read : Value) : (name.asKey >>= fun _ => pure read) ≠ .error .endless := by
    refine bind_ne_error ?_ fun _ => nofun
    unfold Value.asKey
    split <;> nofun
  unfold Heap.property
  cases h.entries? v with
  | some entries => exact keyed _
  | none =>
    split
    · next hsome => cases hsome
    · exact keyed _
    · cases name.text? with
      | none => nofun
      | some text =>
        refine map_ne_error (map_ne_error (attribute?_ne_endless _ text) _) _

theorem holds_ne_endless (c : Check) (value : Value) : c.holds value ≠ .error .endless := by
  have ratio (num : Int) (den : Nat) : doubleOfRatio num den ≠ .error .endless := by
    unfold doubleOfRatio
    split <;> nofun
  have integer : value.isInteger ≠ .error .endless := by
    unfold Value.isInteger
    split
    · nofun
    · split
      · exact bind_ne_error (ratio _ _) fun _ => nofun
      · nofun
  cases c with
  | integer => exact integer
  | positiveInteger =>
    refine bind_ne_error integer fun passed => ?_
    cases passed <;> nofun
  | null | table =>
    unfold Check.holds
    dsimp only
    split <;> nofun
  | plainObject => nofun

/-! ## Matching to the end -/

section

variable {s : Setting} {w : Validator}

/-- Matching by the kind of a schema ends if the predicate's call ends, and all parts that are gone
to. -/
theorem ends_matchKind {known value : Value} {asked : Validation Bool} {sub : PartMatcher}
    {k : Kind} (hasked : k = .predicate → asked.Ends)
    (hsub : ∀ task ∈ s.reached value k, (sub task.1 task.2).Ends) :
    (matchKind s w known value asked sub k).Ends := by
  cases k with
  | atom name => exact .verdict w known value _
  | pattern p => exact .verdict w known value _
  | predicate => exact .bind (hasked rfl) fun passed => .verdict w known value passed
  | array members =>
    rw [matchKind]
    cases hp : s.pairs members value with
    | none => exact .refused w known value
    | some pairs =>
      refine .findSomeM? fun a ha => .descend w.lane (.int a.2) (hsub a.1 ?_)
      show a.1 ∈ (s.pairs members value).getD []
      rw [hp]
      exact List.fst_mem_of_mem_zipIdx ha
  | union members =>
    refine .bind (.findSomeM? fun member hm => ?_) fun found => .verdict w known value found.isSome
    refine .bind (hsub (member, value) (List.mem_map.mpr ⟨member, hm, rfl⟩)) fun found => ?_
    cases found with
    | none => exact .pure (some ())
    | some mismatch => exact .pure none
  | object entries =>
    rw [matchKind, matchObject_declare]
    split
    · exact .refused w known value
    · next hplain =>
      split
      · exact .refused w known value
      · refine .bind (.findSomeM? fun e he => ?_) fun found => ?_
        · cases hr : s.heap.property value e.1 with
          | error failure => exact .fail fun hf => property_ne_endless _ _ _ (hf ▸ hr)
          | ok read =>
            refine .descend w.lane e.1 (hsub (e.2, read) ?_)
            rw [Setting.reached, if_neg hplain]
            exact Setting.mem_tasks_of_read he hr
        · cases found with
          | some mismatch => exact .pure (some mismatch)
          | none =>
            dsimp only
            split
            · exact .refused w known value
            · exact .pure none

theorem ends_matchKindless (w : Validator) (known node value : Value) :
    (matchKindless w known node value).Ends := by
  unfold matchKindless
  split
  · unfold matchForeign
    split
    · split
      · exact .fail nofun
      · exact .refused w known value
    · exact .fail nofun
  · exact .fail nofun

/-- From some depth on, matching a value against a schema is not cut short. -/
def EndsMatching (s : Setting) (w : Validator) (schema value : Value) : Prop :=
  ∃ least, ∀ d, least ≤ d → (matchWithin s d w schema schema value).Ends

/-- A predicate answers a value or fails. -/
def Setting.Finishes (s : Setting) (w : Validator) (predicate value : Value) : Prop :=
  ∃ answer, s.Answers w predicate value answer ∧ answer ≠ .error .endless

/-- One step: matching ends if it ends at all parts that are gone to. -/
theorem endsMatching_of_reached {schema value : Value}
    (hasked : s.heap.kind? schema = some .predicate → s.Finishes w schema value)
    (hsub : ∀ k, s.heap.kind? schema = some k → ∀ task ∈ s.reached value k,
      EndsMatching s w task.1 task.2) : EndsMatching s w schema value := by
  cases hk : s.heap.kind? schema with
  | none =>
    obtain ⟨hlink, hnode⟩ := ne_link_of_no_kind s.heap hk
    refine ⟨1, fun d hd => ?_⟩
    obtain ⟨d, rfl⟩ : ∃ d₀, d = d₀ + 1 := ⟨d - 1, by omega⟩
    rw [matchWithin, matchNode_of_no_kind s _ w hnode hlink]
    exact ends_matchKindless w schema schema value
  | some k =>
    obtain ⟨n, hn⟩ : ∃ n, k = .predicate →
        ∀ d, n ≤ d → (s.ask (matchWithin s d) w schema value).Ends := by
      by_cases hp : k = .predicate
      · obtain ⟨answer, ⟨n, hanswer⟩, hne⟩ := hasked (hp ▸ hk)
        exact ⟨n, fun _ d hd t => hanswer d hd t ▸ hne⟩
      · exact ⟨0, fun h => absurd h hp⟩
    obtain ⟨m, hm⟩ := exists_depth (s.reached value k) (hsub k hk)
    refine ⟨max n m + 2, fun d hd => ?_⟩
    obtain ⟨d, rfl⟩ : ∃ d₀, d = d₀ + 2 := ⟨d - 2, by omega⟩
    obtain ⟨d', hle, -, hrun⟩ := matchWithin_of_kind (w := w) hk d value
    rw [hrun]
    refine ends_matchKind (fun hp => ?_) fun task htask => hm (d' + 1) (by omega) task htask
    subst hp
    rw [resolve_of_predicate s.heap hk]
    exact hn rfl d' (by omega)

/-- Built-in predicates finish. -/
theorem finishes_check (s : Setting) (w : Validator) (c : Check) (value : Value) :
    s.Finishes w (.check c) value :=
  ⟨c.holds value, answers_check s w c value, holds_ne_endless c value⟩

/-! ## Schemas that do not contain themselves -/

/-- All predicates within a schema finish, on all values. -/
def Setting.AllFinish (s : Setting) (w : Validator) (schema : Value) : Prop :=
  ∀ node, Within s.heap node schema → s.heap.kind? node = some .predicate →
    ∀ value, s.Finishes w node value

theorem Setting.AllFinish.part {schema part : Value} {k : Kind} (h : s.AllFinish w schema)
    (hk : s.heap.kind? schema = some k) (hp : part ∈ k.parts) : s.AllFinish w part :=
  fun node hn => h node (.inside hk hp hn)

theorem Setting.AllFinish.ofKind {schema : Value} {k : Kind}
    (hk : s.heap.kind? schema = some k)
    (here : k = .predicate → ∀ value, s.Finishes w schema value)
    (parts : ∀ part ∈ k.parts, s.AllFinish w part) : s.AllFinish w schema :=
  forall_within_of_kind hk (fun hp => here (Option.some.inj (hk.symm.trans hp))) parts

/-- Every step leads to a part of the schema. -/
theorem endsMatching_of_acyclic {schema : Value} (ha : s.heap.Acyclic schema)
    (hfinish : s.AllFinish w schema) (value : Value) : EndsMatching s w schema value := by
  induction ha generalizing value with
  | intro schema _ ih =>
    refine endsMatching_of_reached (fun hp => hfinish schema .here hp value) fun k hk task ht => ?_
    have hpart := Setting.mem_parts_of_mem_tasks (Setting.mem_tasks_of_mem_reached ht)
    exact ih task.1 ⟨k, hk, hpart⟩ (hfinish.part hk hpart) task.2

end

/-! ## Finite data -/

/-- Scalars, which are all that is no object, and lists, tuples and mappings of finite data, shared
or not. -/
inductive FiniteData (h : Heap) : Value → Prop
  | scalar {v : Value} (scalar : v.isPlainObject = false) : FiniteData h v
  | array {v : Value} {items : List Value} (array : h.items? v = some items)
      (each : ∀ item ∈ items, FiniteData h item) : FiniteData h v
  | mapping {v : Value} {entries : List (Value × Value)} (mapping : h.entries? v = some entries)
      (each : ∀ e ∈ entries, FiniteData h e.2) : FiniteData h v

section

variable {h : Heap}

/-- Nothing is read of what is no object. -/
theorem acc_readFrom_of_flat {v : Value} (hv : v.isPlainObject = false) : Acc h.ReadFrom v := by
  refine .intro v fun inner hr => ?_
  rcases hr with ⟨items, hi, -⟩ | ⟨hp, -⟩
  · cases (items?_of_flat hv).symm.trans hi
  · cases hv.symm.trans hp

theorem mem_of_lookup {name read : Value} {entries : List (Value × Value)}
    (hl : h.lookup name entries = some read) : ∃ e ∈ entries, e.2 = read := by
  obtain ⟨e, he, rfl⟩ := Option.map_eq_some_iff.mp hl
  exact ⟨e, List.mem_of_find?_eq_some he, rfl⟩

/-- Items and properties of finite data are finite data in turn, and reading them one from another
comes to an end. -/
theorem FiniteData.acc_readFrom {v : Value} (hv : FiniteData h v) : Acc h.ReadFrom v := by
  induction hv with
  | scalar hv => exact acc_readFrom_of_flat hv
  | @array v items array _ ih =>
    refine .intro v fun inner hr => ?_
    rcases hr with ⟨items', hi, hmem⟩ | ⟨-, hno, -⟩
    · cases array.symm.trans hi
      exact ih inner hmem
    · rw [Heap.isArray, array] at hno
      cases hno
  | @mapping v entries mapping _ ih =>
    refine .intro v fun inner hr => ?_
    rcases hr with ⟨items, hi, -⟩ | ⟨-, -, name, hr⟩
    · cases (entries?_of_items hi).symm.trans mapping
    · unfold Heap.property at hr
      rw [mapping] at hr
      obtain ⟨_, -, hread⟩ := exists_of_bind_eq_ok hr
      cases hread
      cases hl : h.lookup name entries with
      | none => exact acc_readFrom_of_flat rfl
      | some read =>
        obtain ⟨e, he, rfl⟩ := mem_of_lookup hl
        exact ih e he

end

section

variable {s : Setting} {w : Validator}

/-- Unions are not shared as containers are. -/
theorem kind?_of_union {h : Heap} {schema : Value} {members : List Value}
    (hk : h.kind? schema = some (.union members)) : schema.kind? = some (.union members) := by
  have hlink : ∀ a, schema ≠ .link a := by
    rintro a rfl
    rw [kind?_link] at hk
    rcases exists_kind_cell h a with ⟨items, hcell⟩ | ⟨entries, hcell⟩ <;>
      cases hcell.symm.trans hk
  rwa [Heap.kind?, resolve_of_ne_link h hlink] at hk

/-- Every step leads to a part of the value, but for the members of a union, and these are parts of
the union that are not shared. -/
theorem endsMatching_of_acc_readFrom {value : Value} (ha : Acc s.heap.ReadFrom value)
    {schema : Value} (hfinish : s.AllFinish w schema) : EndsMatching s w schema value := by
  induction ha generalizing schema with
  | intro value _ ihvalue =>
    induction schema using Value.kind_induction with
    | step schema ihmember =>
      refine endsMatching_of_reached (fun hp => hfinish schema .here hp value) ?_
      intro k hk task ht
      have hpart := Setting.mem_parts_of_mem_tasks (Setting.mem_tasks_of_mem_reached ht)
      rcases Setting.readFrom_of_mem_reached ht with hr | ⟨members, rfl, hvalue⟩
      · exact ihvalue task.2 hr (hfinish.part hk hpart)
      · rw [hvalue]
        exact ihmember _ (kind?_of_union hk) task.1 hpart (hfinish.part hk hpart)

end

/-! ## Validations -/

/-- If the predicates of a schema finish, a validation returns or fails after finitely many steps,
whatever its options are: for an acyclic schema and every value, and for every schema and every
value that is finite data. The cycles of a schema lead through shared lists and mappings. -/
theorem validate_ends {s : Setting} {schema value : Value} (hfinish : s.AllFinish s.owner schema)
    (h : s.heap.Acyclic schema ∨ FiniteData s.heap value) :
    ∃ depth, ∀ t, s.validate schema value t = matchWithin s depth s.owner schema schema value t ∧
      (s.validate schema value t).1 ≠ .error .endless := by
  have hends : EndsMatching s s.owner schema value := by
    rcases h with hschema | hvalue
    · exact endsMatching_of_acyclic hschema hfinish value
    · exact endsMatching_of_acc_readFrom hvalue.acc_readFrom hfinish
  obtain ⟨depth, hdepth⟩ := hends
  refine ⟨depth, fun t => ?_⟩
  have hne := hdepth depth (Nat.le_refl depth) t
  have heq := Setting.validate_eq hne
  exact ⟨heq, heq ▸ hne⟩

/-! ### An example -/

/-- A world with a list that holds integers and lists of its own form, and one that holds itself. -/
def treeSetting : Setting :=
  ⟨⟨.ofCells #[.list [.union [.check .integer, .link 0]], .list [.link 1]],
      fun _ _ => .answer .null, 0⟩,
    ⟨⟨.bool true⟩, true, .own⟩⟩

def leafOrTree : Value := .union [.check .integer, .link 0]

def tree : Value := .list [.int 1, .tuple [.int 2, .list []]]

theorem check_of_within_tree {v node : Value} (hn : Within treeSetting.heap node v)
    (hv : v = .link 0 ∨ v = leafOrTree ∨ v = .check .integer)
    (hk : treeSetting.heap.kind? node = some .predicate) : node = .check .integer := by
  induction hn with
  | here =>
    rcases hv with rfl | rfl | rfl
    · cases hk
    · cases hk
    · rfl
  | @inside _ part _ kind mem _ ih =>
    rcases hv with rfl | rfl | rfl
    · cases kind
      exact ih (.inr (.inl (List.mem_singleton.mp mem)))
    · cases kind
      rcases List.mem_pair.mp mem with rfl | rfl
      · exact ih (.inr (.inr rfl))
      · exact ih (.inl rfl)
    · cases kind
      cases mem

theorem tree_allFinish : treeSetting.AllFinish treeSetting.owner (.link 0) := by
  intro node hn hk value
  rw [check_of_within_tree hn (.inl rfl) hk]
  exact finishes_check ..

theorem not_acyclic_tree : ¬ treeSetting.heap.Acyclic (.link 0) := by
  intro ha
  have down : treeSetting.heap.PartOf leafOrTree (.link 0) := ⟨.array _, rfl, .head _⟩
  have back : treeSetting.heap.PartOf (.link 0) leafOrTree := ⟨.union _, rfl, .tail _ (.head _)⟩
  exact not_rel_self_of_acc ha.transGen (.tail (.single back) down)

theorem tree_finiteData : FiniteData treeSetting.heap tree := by
  have int (n : Int) : FiniteData treeSetting.heap (.int n) :=
    .scalar (isPlainObject_int n)
  have list (items : List Value) : treeSetting.heap.items? (.list items) = some items := rfl
  have tuple (items : List Value) : treeSetting.heap.items? (.tuple items) = some items := rfl
  have empty : FiniteData treeSetting.heap (.list []) := .array (list []) nofun
  have pair : FiniteData treeSetting.heap (.tuple [.int 2, .list []]) :=
    .array (tuple _) (List.forall_mem_cons.mpr ⟨int 2, List.forall_mem_singleton.mpr empty⟩)
  exact .array (list _) (List.forall_mem_cons.mpr ⟨int 1, List.forall_mem_singleton.mpr pair⟩)

def leaves : Value := .list [.list [.check .integer]]

theorem leaves_allFinish : treeSetting.AllFinish treeSetting.owner leaves := by
  have integer : treeSetting.AllFinish treeSetting.owner (.check .integer) :=
    .ofKind (k := .predicate) rfl (fun _ value => finishes_check _ _ .integer value) nofun
  have inner : treeSetting.AllFinish treeSetting.owner (.list [.check .integer]) :=
    .ofKind (k := .array _) rfl nofun (List.forall_mem_singleton.mpr integer)
  exact .ofKind (k := .array _) rfl nofun (List.forall_mem_singleton.mpr inner)

theorem leaves_acyclic : treeSetting.heap.Acyclic leaves := by
  have integer : WellFormed treeSetting.heap (.check .integer) := .intro (k := .predicate) rfl nofun
  have inner : WellFormed treeSetting.heap (.list [.check .integer]) :=
    .intro (k := .array _) rfl (List.forall_mem_singleton.mpr integer)
  exact (WellFormed.intro (k := .array _) rfl (List.forall_mem_singleton.mpr inner)).acyclic

/-- A cyclic schema ends at finite data, and an acyclic one at a value that holds itself. -/
theorem validate_tree_ends :
    treeSetting.AllFinish treeSetting.owner (.link 0) ∧ ¬ treeSetting.heap.Acyclic (.link 0) ∧
      FiniteData treeSetting.heap tree ∧
      (∃ depth, ∀ t, treeSetting.validate (.link 0) tree t
          = matchWithin treeSetting depth treeSetting.owner (.link 0) (.link 0) tree t ∧
        (treeSetting.validate (.link 0) tree t).1 ≠ .error .endless) ∧
      treeSetting.AllFinish treeSetting.owner leaves ∧ treeSetting.heap.Acyclic leaves ∧
      ∃ depth, ∀ t, treeSetting.validate leaves (.link 1) t
          = matchWithin treeSetting depth treeSetting.owner leaves leaves (.link 1) t ∧
        (treeSetting.validate leaves (.link 1) t).1 ≠ .error .endless :=
  ⟨tree_allFinish, not_acyclic_tree, tree_finiteData,
    validate_ends tree_allFinish (.inr tree_finiteData), leaves_allFinish, leaves_acyclic,
    validate_ends leaves_allFinish (.inl leaves_acyclic)⟩

/-! ## Validations that do not end -/

/-- A list that is its own only item goes round another such list for ever, however deep. -/
theorem matchWithin_round {s : Setting} {w : Validator} {a b : Nat}
    (ha : s.heap.cell a = .list [.link a]) (hb : s.heap.cell b = .list [.link b]) (d : Nat)
    (known : Value) (t : Trace) :
    (matchWithin s d w known (.list [.link a]) (.link b) t).1 = .error .endless := by
  induction d generalizing known t with
  | zero => rfl
  | succ d ih =>
    have hpairs : s.pairs [.link a] (.link b) = some [(.link a, .link b)] := by
      have hitems : s.heap.items? (.link b) = some [.link b] := by
        rw [Heap.items?, Heap.resolve, hb]
      rw [Setting.pairs, hitems]
      rfl
    have hround := ih (.link a) (t.push w.lane (.int 0))
    rw [← ha] at hround
    rw [matchWithin, matchNode_of_kind s _ w (k := .array [.link a]) rfl, matchKind, hpairs]
    have hitem : (Validation.descend w.lane (.int 0)
        (matchNode s (matchWithin s d) w (.link a) (.link a) (.link b)) t).1 = .error .endless :=
      hround
    exact congrArg Prod.fst (bind_of_error (Prod.ext hitem rfl) _)

/-- A cyclic schema against a cyclic value is the case that is left: some such validations never
end. -/
theorem validate_round_endless {s : Setting} {a b : Nat}
    (ha : s.heap.cell a = .list [.link a]) (hb : s.heap.cell b = .list [.link b]) (t : Trace) :
    (s.validate (.link a) (.link b) t).1 = .error .endless := by
  refine Setting.validate_endless fun d => ?_
  cases d with
  | zero => rfl
  | succ d =>
    show (matchWithin s d s.owner (.link a) (s.heap.cell a) (.link b) t).1 = _
    rw [ha]
    exact matchWithin_round ha hb d (.link a) t

/-- A mapping that goes on to itself under a name goes round an object for ever that reads as itself
under that name. -/
theorem matchWithin_reread {s : Setting} {w : Validator} {a : Nat} {name value : Value}
    (ha : s.heap.cell a = .mapping [(name, .link a)]) (object : value.isPlainObject = true)
    (single : s.heap.isArray value = false) (room : (s.heap.ownNames value).length ≤ 1)
    (hread : s.heap.property value name = .ok value) (d : Nat) (known : Value) (t : Trace) :
    (matchWithin s d w known (.mapping [(name, .link a)]) value t).1 = .error .endless := by
  induction d generalizing known t with
  | zero => rfl
  | succ d ih =>
    have hround := ih (.link a) (t.push w.lane name)
    rw [← ha] at hround
    let sub : PartMatcher := fun part value => matchNode s (matchWithin s d) w part part value
    have hpart : (Validation.descend w.lane name (sub (.link a) value) t).1 = .error .endless :=
      hround
    have hvisit : (visitEntries s w sub value [(name, .link a)] t).1 = .error .endless := by
      rw [visitEntries, List.findSomeM?_cons, hread, Validation.lift_ok, Validation.pure_bind]
      exact congrArg Prod.fst (bind_of_error (Prod.ext hpart rfl) _)
    have hplain : ¬ (!value.isPlainObject || s.heap.isArray value) = true := by
      simp [object, single]
    have hroom : ¬ (w.closed && decide ([(name, Value.link a)].length
        < (s.heap.ownNames value).length)) = true := by
      simp [room]
    rw [matchWithin, matchNode_of_kind s _ w (k := .object [(name, .link a)]) rfl, matchKind,
      matchObject_declare, if_neg hplain, if_neg hroom]
    exact congrArg Prod.fst (bind_of_error (Prod.ext hvisit rfl) _)

/-- A decimal number is its own real part, so it is not among finite data. -/
theorem validate_real_endless {s : Setting} {a : Nat}
    (ha : s.heap.cell a = .mapping [(.str "real", .link a)]) (handle : Option Nat) (x : Decimal)
    (t : Trace) :
    (s.validate (.link a) (.object handle (.decimal x)) t).1 = .error .endless := by
  have room : (s.heap.ownNames (.object handle (.decimal x))).length ≤ 1 := Nat.zero_le 1
  refine Setting.validate_endless fun d => ?_
  cases d with
  | zero => rfl
  | succ d =>
    show (matchWithin s d s.owner (.link a) (s.heap.cell a) _ t).1 = _
    rw [ha]
    exact matchWithin_reread ha rfl rfl room rfl d (.link a) t

end Conform
