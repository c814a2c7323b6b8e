import Mathlib.Logic.Relation
import Sieve.Proofs.Outcome
import Sieve.Selection

/-!
# Members of composites

A composite stands for its members, which may be composites again. A schema is declared only if all
members are names of fields; nothing keeps a composite from being a member of itself.

* `Schema.Member`, `Schema.Within`: the members of a composite, and what is within it at any depth;
* `Schema.Acyclic`: no composite is within itself;
* `Schema.height`: the number of names within a composite, which falls from a composite to its members
  (`Schema.height_lt`);
* `Schema.Checked`: what is checked of every declared schema (`Schema.checked_of_declare`).
-/

namespace Sieve

theorem Field.ref_eq_ok_iff {f : Field} {r : FieldRef} : f.ref = .ok r ↔ f.ref? = some r := by
  unfold Field.ref
  split <;> simp_all

namespace Schema

variable {s : Schema} {n m : String}

/-! ### Composites -/

/-- The second name is a member of the composite with the first one. -/
def Member (s : Schema) (n m : String) : Prop :=
  ∃ name members, s.get? n = some (.composite name members) ∧ m ∈ members

/-- The second name is a member of the composite with the first one, or within one of its members. -/
def Within (s : Schema) : String → String → Prop :=
  Relation.TransGen s.Member

/-- No composite is within itself. -/
def Acyclic (s : Schema) : Prop :=
  ∀ n, ¬s.Within n n

/-- The names of fields within a composite. -/
noncomputable def inner (s : Schema) (n : String) : Finset String :=
  open Classical in (s.fields.map Field.name).toFinset.filter (s.Within n ·)

/-- The number of names of fields within a composite. -/
noncomputable def height (s : Schema) (n : String) : Nat :=
  (s.inner n).card

theorem mem_names_of_get? {f : Field} (h : s.get? n = some f) : n ∈ s.fields.map Field.name := by
  refine List.mem_map.2 ⟨f, List.mem_of_find?_eq_some h, ?_⟩
  simpa using List.find?_some h

theorem mem_inner {f : Field} (hm : s.get? m = some f) : m ∈ s.inner n ↔ s.Within n m := by
  have hname : m ∈ (s.fields.map Field.name).toFinset := List.mem_toFinset.2 (mem_names_of_get? hm)
  simp [inner, Finset.mem_filter, hname]

/-- There are at most as many names within a composite as there are fields. -/
theorem height_le (s : Schema) (n : String) : s.height n ≤ s.fields.length := by
  classical
  calc s.height n ≤ (s.fields.map Field.name).toFinset.card := Finset.card_filter_le _ _
    _ ≤ (s.fields.map Field.name).length := List.toFinset_card_le _
    _ = s.fields.length := List.length_map _

/-- Without cycles, fewer names are within a member than within its composite. -/
theorem height_lt (hs : s.Acyclic) (h : s.Member n m) {f : Field} (hm : s.get? m = some f) :
    s.height m < s.height n := by
  refine Finset.card_lt_card (Finset.ssubset_iff_of_subset ?_ |>.2 ⟨m, ?_, ?_⟩)
  · intro k hk
    simp only [inner, Finset.mem_filter] at hk ⊢
    exact ⟨hk.1, .head h hk.2⟩
  · exact (mem_inner hm).2 (.single h)
  · rw [mem_inner hm]
    exact hs m

/-- On a cycle, the next member is on a cycle too. -/
theorem exists_member_within (h : s.Within n n) : ∃ m, s.Member n m ∧ s.Within m m := by
  obtain ⟨m, hm, hback⟩ := Relation.TransGen.head'_iff.1 h
  exact ⟨m, hm, .tail' hback hm⟩

/-! ### What declarations guarantee -/

/-- What is checked of every declared schema: members, filterable and sortable names are names of
fields, no alias is filterable, no custom field is sortable. -/
structure Checked (s : Schema) : Prop where
  member : ∀ n m, s.Member n m → ∃ f, s.get? m = some f
  filterable : ∀ n ∈ s.filterable, ∃ f, s.get? n = some f ∧ f.kind ≠ .isAlias
  sortable : ∀ n ∈ s.sortable, ∃ f, s.get? n = some f ∧ f.kind ≠ .custom

/-- The fields that are collected are those that were known and those that are declared. -/
theorem collect_mem {name : String} {es : List (Except Error Field)} {known fields : List Field}
    (h : collect name known es = .ok fields) {f : Field} (hf : f ∈ fields) :
    f ∈ known ∨ .ok f ∈ es := by
  induction es generalizing known with
  | nil =>
    cases h
    exact .inl hf
  | cons e es ih =>
    unfold collect at h
    obtain ⟨g, hg, h⟩ := Outcome.bind_eq_ok_iff.1 h
    split at h
    · cases h
    · rcases ih h with hknown | hes
      · rcases List.mem_append.1 hknown with hknown | hlast
        · exact .inl hknown
        · rw [List.mem_singleton.1 hlast, ← hg]
          exact .inr List.mem_cons_self
      · exact .inr (List.mem_cons_of_mem _ hes)

theorem ofJoinEntries_kind {name : String} {es : List (Value × Value)} {f : Field}
    (h : Field.ofJoinEntries name es = .ok f) : f.kind = .join := by
  unfold Field.ofJoinEntries at h
  obtain ⟨t, _, h⟩ := Outcome.bind_eq_ok_iff.1 h
  split at h
  · obtain ⟨path, _, h⟩ := Outcome.bind_eq_ok_iff.1 h
    obtain ⟨ops, _, h⟩ := Outcome.bind_eq_ok_iff.1 h
    cases h
    rfl
  · cases h

theorem ofJoin_kind {name : String} {v : Value} {f : Field} (h : Field.ofJoin name v = .ok f) :
    f.kind = .join := by
  unfold Field.ofJoin at h
  split at h
  · exact ofJoinEntries_kind h
  · cases h
  · exact ofJoinEntries_kind h
  · cases h

theorem ofCustom_kind {name : String} {entry : Option CustomEntry} {f : Field}
    (h : Field.ofCustom name entry = .ok f) : f.kind = .custom := by
  unfold Field.ofCustom at h
  split at h
  · cases h
  · split at h
    · cases h
    · dsimp only at h
      split at h
      all_goals
        obtain ⟨options, _, h⟩ := Outcome.bind_eq_ok_iff.1 h
        obtain ⟨t, _, h⟩ := Outcome.bind_eq_ok_iff.1 h
        obtain ⟨ops, _, h⟩ := Outcome.bind_eq_ok_iff.1 h
        cases h
        rfl

/-- A composite among the fields has the members that its declaration lists. -/
theorem exists_composite_entry {d : Declarations} {name : String} {members : List String}
    (h : .ok (.composite name members) ∈ d.fieldEntries) :
    ∃ v xs, (name, v) ∈ d.composites ∧ v.items = .ok xs ∧ members = xs.map Value.render := by
  simp only [Declarations.fieldEntries, List.mem_append, List.mem_map] at h
  rcases h with (((⟨e, _, h⟩ | ⟨e, _, h⟩) | ⟨e, _, h⟩) | ⟨e, he, h⟩) | ⟨e, _, h⟩
  · cases ht : StorageType.declared e.2 with
    | error _ => rw [ht] at h; cases h
    | ok t => rw [ht] at h; cases h
  · cases h
  · cases ofJoin_kind h
  · obtain ⟨xs, hxs, h⟩ := Outcome.bind_eq_ok_iff.1 h
    cases h
    exact ⟨e.2, xs, he, hxs, rfl⟩
  · cases ofCustom_kind h

/-- Where no name is unknown, all given values are names of fields. -/
theorem names_of_unknownNames {given : List Value} (h : s.unknownNames given = .ok []) :
    ∀ v ∈ given, s.names v = true := by
  intro v hv
  by_contra hno
  have hmem : v ∈ given.filter (!s.names ·) := List.mem_filter.2 ⟨hv, by simpa using hno⟩
  have hall := Outcome.mapM_eq_ok_iff.1 h
  rw [List.forall₂_nil_right_iff.1 hall] at hmem
  cases hmem

theorem exists_of_names {v : Value} (h : s.names v = true) : ∃ f, s.get? v.render = some f := by
  cases v with
  | text n =>
    rw [Value.render_text]
    exact Option.isSome_iff_exists.1 h
  | _ => cases h

theorem names_of_checkMembers {composites : List (String × Value)}
    (h : s.checkMembers composites = .ok ()) {name : String} {v : Value}
    (hv : (name, v) ∈ composites) {xs : List Value} (hxs : v.items = .ok xs) :
    ∀ x ∈ xs, s.names x = true := by
  induction composites with
  | nil => cases hv
  | cons e composites ih =>
    unfold checkMembers at h
    obtain ⟨items, hitems, h⟩ := Outcome.bind_eq_ok_iff.1 h
    obtain ⟨unknown, hunknown, h⟩ := Outcome.bind_eq_ok_iff.1 h
    split at h
    · next hempty =>
      rcases List.mem_cons.1 hv with rfl | hv
      · cases hitems.symm.trans hxs
        rw [List.isEmpty_iff.1 hempty] at hunknown
        exact names_of_unknownNames hunknown
      · exact ih h hv
    · cases h

theorem names_of_checkDeclared {capability : String} {given : List Value}
    (h : s.checkDeclared capability given = .ok ()) : ∀ v ∈ given, s.names v = true := by
  unfold checkDeclared at h
  obtain ⟨unknown, hunknown, h⟩ := Outcome.bind_eq_ok_iff.1 h
  split at h
  · next hempty =>
    rw [List.isEmpty_iff.1 hempty] at hunknown
    exact names_of_unknownNames hunknown
  · cases h

theorem kind_of_firstOfKind? {kind : FieldKind} {names : List String}
    (h : s.firstOfKind? kind names = none) (hn : n ∈ names) {f : Field} (hf : s.get? n = some f) :
    f.kind ≠ kind := by
  have hnot := List.find?_eq_none.1 h n hn
  simpa [hf] using hnot

theorem check_eq_ok {composites : List (String × Value)} {filterable sortable : List Value}
    (h : s.check composites filterable sortable = .ok ()) :
    s.checkMembers composites = .ok () ∧ s.checkDeclared "filterable" filterable = .ok () ∧
      s.checkDeclared "sortable" sortable = .ok () ∧
      s.firstOfKind? .isAlias s.filterable = none ∧ s.firstOfKind? .custom s.sortable = none := by
  unfold check at h
  obtain ⟨⟨⟩, hmembers, h⟩ := Outcome.bind_eq_ok_iff.1 h
  obtain ⟨⟨⟩, hfilterable, h⟩ := Outcome.bind_eq_ok_iff.1 h
  obtain ⟨⟨⟩, hsortable, h⟩ := Outcome.bind_eq_ok_iff.1 h
  refine ⟨hmembers, hfilterable, hsortable, ?_⟩
  cases halias : s.firstOfKind? .isAlias s.filterable with
  | some n =>
    rw [halias] at h
    cases h
  | none =>
    cases hcustom : s.firstOfKind? .custom s.sortable with
    | some n =>
      rw [halias, hcustom] at h
      cases h
    | none => exact ⟨rfl, rfl⟩

/-- **A declared schema is checked.** -/
theorem checked_of_declare {d : Declarations} (h : declare d = .ok s) : s.Checked := by
  unfold declare at h
  obtain ⟨filterable, _, h⟩ := Outcome.bind_eq_ok_iff.1 h
  obtain ⟨sortable, _, h⟩ := Outcome.bind_eq_ok_iff.1 h
  obtain ⟨order, _, h⟩ := Outcome.bind_eq_ok_iff.1 h
  obtain ⟨types, _, h⟩ := Outcome.bind_eq_ok_iff.1 h
  obtain ⟨fields, hfields, h⟩ := Outcome.bind_eq_ok_iff.1 h
  obtain ⟨⟨⟩, hcheck, h⟩ := Outcome.bind_eq_ok_iff.1 h
  cases h
  obtain ⟨hmembers, hfilterable, hsortable, halias, hcustom⟩ := check_eq_ok hcheck
  refine ⟨?_, ?_, ?_⟩
  · rintro n m ⟨name, members, hn, hm⟩
    have hmem : Field.composite name members ∈ fields := List.mem_of_find?_eq_some hn
    obtain ⟨v, xs, hv, hxs, rfl⟩ :=
      exists_composite_entry ((collect_mem hfields hmem).resolve_left (by simp))
    obtain ⟨x, hx, rfl⟩ := List.mem_map.1 hm
    exact exists_of_names (names_of_checkMembers hmembers hv hxs x hx)
  · intro n hn
    obtain ⟨v, hv, rfl⟩ := List.mem_map.1 hn
    obtain ⟨f, hf⟩ := exists_of_names (names_of_checkDeclared hfilterable v hv)
    exact ⟨f, hf, kind_of_firstOfKind? halias hn hf⟩
  · intro n hn
    obtain ⟨v, hv, rfl⟩ := List.mem_map.1 hn
    obtain ⟨f, hf⟩ := exists_of_names (names_of_checkDeclared hsortable v hv)
    exact ⟨f, hf, kind_of_firstOfKind? hcustom hn hf⟩

end Schema

end Sieve
