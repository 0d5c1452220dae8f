import Conform.Proofs.Schema.Kind
import Conform.Value.Equality
/-!
# Equality of values

Texts are equal when they are the same text, and functions when they are the same thing. Entries
under texts that are all different are found one by one, so two mappings with the same names are
equal when what is under each name is.
-/

set_option autoImplicit false

namespace Conform

theorem text_cases {v : Value} {s : String} (hv : v.text? = some s) :
    v = .str s ∨ ∃ handle member, v = .object handle (.strMember member s) := by
  cases v with
  | str name =>
    cases hv
    exact .inl rfl
  | object handle content =>
    cases content with
    | strMember member name =>
      cases hv
      exact .inr ⟨handle, member, rfl⟩
    | _ => cases hv
  | _ => cases hv

/-- A value that can be called is a built-in predicate, a host function or a function. -/
theorem callable_cases {p : Value} (hp : p.isCallable = true) :
    (∃ c, p = .check c) ∨ (∃ handle f, p = .object handle (.host f)) ∨
      ∃ handle name className signature code own,
        p = .object handle (.function name className signature code own) := by
  have integer (n : Int) : (integerTag n == Tag.function) = false := by
    unfold integerTag
    split <;> rfl
  cases p with
  | check c => exact .inl ⟨c, rfl⟩
  | object handle content =>
    cases content with
    | host f => exact .inr (.inl ⟨handle, f, rfl⟩)
    | function name className signature code own =>
      exact .inr (.inr ⟨handle, name, className, signature, code, own, rfl⟩)
    | intMember _ n => exact absurd hp (by simp [Value.isCallable, Value.tag, Object.tag, integer])
    | machine x =>
      cases x <;> exact absurd hp (by simp [Value.isCallable, Value.tag, Object.tag, integer])
    | _ => cases hp
  | int n => exact absurd hp (by simp [Value.isCallable, Value.tag, integer])
  | _ => cases hp

theorem wellFormed_of_callable {h : Heap} {p : Value} (hp : p.isCallable = true) :
    WellFormed h p := by
  rcases callable_cases hp with
    ⟨c, rfl⟩ | ⟨handle, f, rfl⟩ | ⟨handle, name, className, signature, code, own, rfl⟩
  all_goals exact .intro (k := .predicate) rfl nofun

section

variable (h : Heap)

/-- Equality through a number of links is equality with some way to follow the first. -/
theorem exists_equalTo_eq (n : Nat) : ∃ onLink, h.equalTo n = equalWith h onLink := by
  cases n with
  | zero => exact ⟨_, rfl⟩
  | succ n => exact ⟨_, rfl⟩

theorem equalTo_link {n a : Nat} {w : Value} (hw : h.equalTo n (h.cell a) w = true) :
    h.equalTo (n + 1) (.link a) w = true := by
  cases w with
  | link b =>
    show (a == b || h.equalTo n (h.cell a) (.link b)) = true
    rw [hw, Bool.or_true]
  | _ => exact hw

/-- A container that equals another one equals a link to it. -/
theorem equalTo_link_right {n a : Nat} {v : Value}
    (hv : (∃ items, v = .list items) ∨ ∃ entries, v = .mapping entries)
    (heq : h.equalTo n v (h.cell a) = true) : h.equalTo n v (.link a) = true := by
  obtain ⟨onLink, hlink⟩ := exists_equalTo_eq h n
  have hresolve : h.resolve (.link a) = h.resolve (h.cell a) := (resolve_cell h a).symm
  rw [hlink] at heq ⊢
  rcases hv with ⟨items, rfl⟩ | ⟨entries, rfl⟩
  · rw [equalWith] at heq ⊢
    rw [hresolve]
    exact heq
  · have hentries : h.entries? (.link a) = h.entries? (h.cell a) := by
      rw [Heap.entries?, Heap.entries?, hresolve]
    rw [equalWith] at heq ⊢
    rw [hentries]
    exact heq

variable (onLink : Nat → Value → Bool)

theorem equalWith_str (s t : String) : equalWith h onLink (.str s) (.str t) = (s == t) := rfl

theorem equal_str (s t : String) : h.equal (.str s) (.str t) = (s == t) := rfl

/-- Where one of two equal atoms is a text, both are that text. -/
theorem text?_eq_of_equalAtoms {v w : Value} {text : String}
    (either : v.text? = some text ∨ w.text? = some text)
    (hv : (equalAtoms v w).getD (sameThing v w) = true) : v.text? = w.text? := by
  unfold equalAtoms at hv
  cases hn : v.number? with
  | some x =>
    cases hm : w.number? with
    | some y =>
      rcases either with ht | ht <;> rcases text_cases ht with rfl | ⟨handle, member, rfl⟩ <;>
        contradiction
    | none =>
      rw [hn, hm] at hv
      cases hv
  | none =>
    cases hm : w.number? with
    | some y =>
      rw [hn, hm] at hv
      cases hv
    | none =>
      rw [hn, hm] at hv
      cases hs : v.text? with
      | some s =>
        cases ht : w.text? with
        | some t =>
          rw [hs, ht] at hv
          exact congrArg some (beq_iff_eq.mp hv)
        | none =>
          rw [hs, ht] at hv
          cases hv
      | none =>
        cases ht : w.text? with
        | some t =>
          rw [hs, ht] at hv
          cases hv
        | none => rfl

/-- Only texts equal a text. -/
theorem text?_of_equal_text {v w : Value} {text : String} (hw : w.text? = some text)
    (hv : h.equal v w = true) : v.text? = some text := by
  have hlink (n a : Nat) : h.equalTo n (h.cell a) w = false := by
    obtain ⟨onLink, hequal⟩ := exists_equalTo_eq h n
    rw [hequal]
    rcases cell_cases h a with ⟨items, hcell⟩ | ⟨entries, hcell⟩ <;> rw [hcell] <;>
      rcases text_cases hw with rfl | ⟨handle, member, rfl⟩ <;> rfl
  unfold Heap.equal at hv
  cases v with
  | link a =>
    have hfollow : h.equalTo (2 * h.size + 1) (h.cell a) w = true := by
      rcases text_cases hw with rfl | ⟨handle, member, rfl⟩ <;> exact hv
    rw [hlink] at hfollow
    cases hfollow
  | list items | tuple items | union items | mapping entries =>
    rcases text_cases hw with rfl | ⟨handle, member, rfl⟩ <;> cases hv
  | object handle content =>
    cases content with
    | proxy entries | set items | frozenSet items | options flag | mismatch path actual expected =>
      rcases text_cases hw with rfl | ⟨handle, member, rfl⟩ <;> cases hv
    | _ => exact (text?_eq_of_equalAtoms (.inr hw) hv).trans hw
  | _ => exact (text?_eq_of_equalAtoms (.inr hw) hv).trans hw

/-- A text equals only texts. -/
theorem text?_of_str_equal {v : Value} {text : String}
    (hv : h.equal (.str text) v = true) : v.text? = some text :=
  (text?_eq_of_equalAtoms (.inl rfl) hv).symm

theorem equalAtoms_of_text {v : Value} {s : String} (hv : v.text? = some s) (w : Value) :
    ∃ b, equalAtoms v w = some b := by
  have hnumber : v.number? = none := by
    rcases text_cases hv with rfl | ⟨handle, member, rfl⟩ <;> rfl
  unfold equalAtoms
  rw [hnumber, hv]
  cases w.number? with
  | some x => exact ⟨false, rfl⟩
  | none => cases w.text? <;> exact ⟨_, rfl⟩

/-- It does not matter what kind of text a text is. -/
theorem equal_of_text {v : Value} {s : String} (hv : v.text? = some s) (w : Value) :
    h.equal v w = h.equal (.str s) w := by
  rcases text_cases hv with rfl | ⟨handle, member, rfl⟩
  · rfl
  · obtain ⟨b, hb⟩ := equalAtoms_of_text hv w
    have hatoms : equalAtoms (.object handle (.strMember member s)) w = equalAtoms (.str s) w := rfl
    show (equalAtoms (.object handle (.strMember member s)) w).getD _ = (equalAtoms (.str s) w).getD _
    rw [← hatoms, hb]
    rfl

theorem equalWith_texts {v w : Value} {s t : String} (hv : v.text? = some s)
    (hw : w.text? = some t) : equalWith h onLink v w = (s == t) := by
  rcases text_cases hv with rfl | ⟨handle, member, rfl⟩ <;>
    rcases text_cases hw with rfl | ⟨handle', member', rfl⟩ <;> rfl

theorem equal_texts {v w : Value} {s t : String} (hv : v.text? = some s)
    (hw : w.text? = some t) : h.equal v w = (s == t) := by
  obtain ⟨onLink, hequal⟩ := exists_equalTo_eq h (2 * h.size + 2)
  rw [Heap.equal, hequal, equalWith_texts h onLink hv hw]

/-- Functions are compared without looking inside them. -/
theorem equalWith_callable {p : Value} (hp : p.isCallable = true) (w : Value) :
    equalWith h onLink p w = (equalAtoms p w).getD (sameThing p w) := by
  rcases callable_cases hp with
    ⟨c, rfl⟩ | ⟨handle, f, rfl⟩ | ⟨handle, name, className, signature, code, own, rfl⟩
  all_goals rfl

theorem equal_callable {p : Value} (hp : p.isCallable = true) (w : Value) :
    h.equal p w = equalWith h onLink p w := by
  rw [equalWith_callable h onLink hp]
  exact equalWith_callable h _ hp w

/-! ## Containers -/

section

variable {α : Type} {l : List α} {f g : α → Value}

theorem equalLists_map (heq : ∀ a ∈ l, equalWith h onLink (f a) (g a) = true) :
    equalLists h onLink (l.map f) (l.map g) = true := by
  induction l with
  | nil => rfl
  | cons a l ih =>
    rw [List.map_cons, List.map_cons, equalLists, heq a (List.mem_cons_self ..),
      ih fun x hx => heq x (List.mem_cons_of_mem a hx)]
    rfl

end

/-- The names of entries are texts, and all different. -/
structure Named (entries : List (Value × Value)) : Prop where
  texts : ∀ e ∈ entries, ∃ name, e.1 = .str name
  distinct : (entries.map Prod.fst).Nodup

theorem Named.tail {e : Value × Value} {entries : List (Value × Value)}
    (hn : Named (e :: entries)) :
    Named entries :=
  ⟨fun x hx => hn.texts x (List.mem_cons_of_mem e hx), (List.nodup_cons.mp hn.distinct).2⟩

section

variable {α : Type} {l : List α} {key f g : α → Value}

/-- What is under the names does not matter. -/
theorem Named.map (hn : Named (l.map fun a => (key a, f a))) (g : α → Value) :
    Named (l.map fun a => (key a, g a)) := by
  refine ⟨fun x hx => ?_, ?_⟩
  · obtain ⟨a, ha, rfl⟩ := List.mem_map.mp hx
    exact hn.texts (key a, f a) (List.mem_map.mpr ⟨a, ha, rfl⟩)
  · have hdistinct := hn.distinct
    rw [List.map_map] at hdistinct ⊢
    exact hdistinct

theorem Named.find?_map (hn : Named (l.map fun a => (key a, g a))) {a : α} (ha : a ∈ l) :
    (l.map fun a => (key a, g a)).find? (fun y => equalWith h onLink (key a) y.1)
      = some (key a, g a) := by
  induction l with
  | nil => cases ha
  | cons x l ih =>
    rw [List.map_cons] at hn ⊢
    rw [List.find?_cons]
    obtain ⟨name, hname⟩ := hn.texts _ (List.mem_cons_self ..)
    change key x = .str name at hname
    rcases List.mem_cons.mp ha with rfl | ha
    · rw [hname, equalWith_str, beq_self_eq_true]
    · obtain ⟨name', hname'⟩ := hn.tail.texts _ (List.mem_map.mpr ⟨a, ha, rfl⟩)
      change key a = .str name' at hname'
      have hne : name' ≠ name := by
        rintro rfl
        refine (List.nodup_cons.mp hn.distinct).1 (List.mem_map.mpr ⟨(key a, g a), ?_, ?_⟩)
        · exact List.mem_map.mpr ⟨a, ha, rfl⟩
        · exact hname'.trans hname.symm
      rw [hname, hname', equalWith_str, beq_eq_false_iff_ne.mpr hne, ← hname']
      exact ih hn.tail ha

theorem Named.equalEntries_map (hn : Named (l.map fun a => (key a, g a)))
    (heq : ∀ a ∈ l, equalWith h onLink (f a) (g a) = true) :
    equalEntries h onLink (l.map fun a => (key a, f a)) (l.map fun a => (key a, g a)) = true := by
  have hsub (xs : List α) (hxs : ∀ a ∈ xs, a ∈ l) :
      equalEntries h onLink (xs.map fun a => (key a, f a)) (l.map fun a => (key a, g a))
        = true := by
    induction xs with
    | nil => rfl
    | cons a xs ih =>
      have ha := hxs a (List.mem_cons_self ..)
      rw [List.map_cons, equalEntries, hn.find?_map h onLink ha,
        ih fun x hx => hxs x (List.mem_cons_of_mem a hx)]
      exact (Bool.and_true _).trans (heq a ha)
  exact hsub l fun a ha => ha

/-- Mappings with the same names are equal when what is under each name is. -/
theorem Named.equalWith_mapping (hn : Named (l.map fun a => (key a, g a)))
    (heq : ∀ a ∈ l, equalWith h onLink (f a) (g a) = true) :
    equalWith h onLink (.mapping (l.map fun a => (key a, f a)))
      (.mapping (l.map fun a => (key a, g a))) = true := by
  show (_ == _ && equalEntries h onLink _ _) = true
  rw [hn.equalEntries_map h onLink heq, List.length_map, List.length_map, beq_self_eq_true]
  rfl

end

/-- A pair under a name that is not there yet comes last. -/
theorem insert_eq_concat {entries : List (Value × Value)} {e : Value × Value}
    (hn : Named (entries ++ [e])) : h.insert e.1 e.2 entries = entries ++ [e] := by
  have hnew : h.find? e.1 entries = none := by
    refine List.find?_eq_none.mpr fun x hx => ?_
    obtain ⟨name, hname⟩ := hn.texts x (List.mem_append_left _ hx)
    obtain ⟨name', hname'⟩ := hn.texts e (List.mem_append_right _ (List.mem_singleton.mpr rfl))
    have hne : e.1 ≠ x.1 := by
      have hdistinct := hn.distinct
      rw [List.map_append, List.nodup_append] at hdistinct
      exact (hdistinct.2.2 x.1 (List.mem_map.mpr ⟨x, hx, rfl⟩) e.1
        (List.mem_singleton.mpr rfl)).symm
    rw [hname, hname'] at hne ⊢
    rw [equal_str, beq_iff_eq]
    exact fun heq => hne (congrArg Value.str heq)
  rw [Heap.insert, Heap.hasKey, hnew]
  rfl

theorem Named.ofPairs_eq {entries : List (Value × Value)} (hn : Named entries) :
    h.ofPairs entries = entries := by
  have hfold (front back : List (Value × Value)) (hn : Named (front ++ back)) :
      back.foldl (fun entries e => h.insert e.1 e.2 entries) front = front ++ back := by
    induction back generalizing front with
    | nil => exact (List.append_nil front).symm
    | cons e back ih =>
      have hassoc : front ++ e :: back = front ++ [e] ++ back := by
        rw [List.append_assoc, List.singleton_append]
      rw [hassoc] at hn ⊢
      have hfront : Named (front ++ [e]) := by
        refine ⟨fun x hx => hn.texts x (List.mem_append_left _ hx), ?_⟩
        have hdistinct := hn.distinct
        rw [List.map_append, List.nodup_append] at hdistinct
        exact hdistinct.1
      rw [List.foldl_cons, insert_eq_concat h hfront]
      exact ih (front ++ [e]) hn
  exact hfold [] entries hn

end

end Conform
