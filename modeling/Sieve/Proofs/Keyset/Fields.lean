import Sieve.Proofs.Keyset.Fetch
import Sieve.Proofs.Schema.Members

/-!
# Rankings by the fields of a schema

Plain and joined fields are found where cursors read them, so an ordering by such fields, with values
of totally ordered types, is a ranking. The cursor of a row holds what the row is ranked by.

* `Schema.HasPaths`: joined columns are at the end of a path, as in every declared schema
  (`Schema.hasPaths_of_declare`);
* `sortValue`: the value of a field in a row, by the name of the field;
* `Ranking.typed`: the ranking by fields whose values are of given types;
* `Cursor.exists_ofRow`, `Cursor.lookup_ofRow`, `Ranking.bound?_ofRow`: rows have cursors, and what these
  hold.
-/

namespace Sieve

open Std (TransCmp)

/-! ### Where fields are found -/

/-- A joined column is at the end of a path. -/
def Field.HasPath : Field → Prop
  | .join _ _ _ path _ _ => path ≠ []
  | _ => True

/-- The joined columns of the schema, if there is one, are at the end of a path. -/
def Schema.HasPaths (schema : Option Schema) : Prop :=
  ∀ s ∈ schema, ∀ f ∈ s.fields, f.HasPath

theorem Schema.items_ne_nil {v : Value} {xs : List Value} (ht : v.truthy = true)
    (h : v.items = .ok xs) : xs ≠ [] := by
  rintro rfl
  cases v with
  | broken t =>
    exact t.points_ne_nil (by simpa [Value.items, RawText.singles, RawText.points] using h)
  | _ => simp_all [Value.items, Value.truthy]

theorem Schema.declaredPath_ne_nil {default xs : List Value} {v : Value}
    (hd : default ≠ []) (h : Field.declaredPath default v = .ok xs) : xs ≠ [] := by
  unfold Field.declaredPath at h
  split at h
  · exact items_ne_nil ‹_› h
  · cases h
    exact hd

theorem Schema.ofJoinEntries_hasPath {name : String} {es : List (Value × Value)} {f : Field}
    (h : Field.ofJoinEntries name es = .ok f) : f.HasPath := by
  unfold Field.ofJoinEntries at h
  obtain ⟨t, _, h⟩ := Outcome.bind_eq_ok_iff.1 h
  split at h
  · obtain ⟨path, hpath, h⟩ := Outcome.bind_eq_ok_iff.1 h
    obtain ⟨ops, _, h⟩ := Outcome.bind_eq_ok_iff.1 h
    cases h
    exact declaredPath_ne_nil (by simp) hpath
  · cases h

theorem Schema.ofJoin_hasPath {name : String} {v : Value} {f : Field}
    (h : Field.ofJoin name v = .ok f) : f.HasPath := by
  unfold Field.ofJoin at h
  split at h
  · exact ofJoinEntries_hasPath h
  · cases h
  · exact ofJoinEntries_hasPath h
  · cases h

theorem Schema.ofCustom_hasPath {name : String} {entry : Option CustomEntry} {f : Field}
    (h : Field.ofCustom name entry = .ok f) : f.HasPath := by
  unfold Field.ofCustom at h
  split at h
  · cases h
  · split at h
    · cases h
    · dsimp only at h
      split at h
      all_goals
        obtain ⟨_, _, h⟩ := Outcome.bind_eq_ok_iff.1 h
        obtain ⟨_, _, h⟩ := Outcome.bind_eq_ok_iff.1 h
        obtain ⟨_, _, h⟩ := Outcome.bind_eq_ok_iff.1 h
        cases h
        trivial

theorem Schema.fieldEntries_hasPath {d : Declarations} {f : Field} (h : .ok f ∈ d.fieldEntries) :
    f.HasPath := by
  simp only [Declarations.fieldEntries, List.mem_append, List.mem_map] at h
  rcases h with (((⟨e, _, h⟩ | ⟨e, _, h⟩) | ⟨e, _, h⟩) | ⟨e, _, h⟩) | ⟨e, _, h⟩
  · cases ht : StorageType.declared e.2 with
    | error _ => rw [ht] at h; cases h
    | ok t => rw [ht] at h; cases h; trivial
  · cases h
    trivial
  · exact ofJoin_hasPath h
  · obtain ⟨xs, _, h⟩ := Outcome.bind_eq_ok_iff.1 h
    cases h
    trivial
  · exact ofCustom_hasPath h

/-- **The joined columns of a declared schema have paths.** -/
theorem Schema.hasPaths_of_declare {d : Declarations} {s : Schema} (h : declare d = .ok s) :
    HasPaths (some s) := by
  unfold declare at h
  obtain ⟨filterable, _, h⟩ := Outcome.bind_eq_ok_iff.1 h
  obtain ⟨sortable, _, h⟩ := Outcome.bind_eq_ok_iff.1 h
  obtain ⟨order, _, h⟩ := Outcome.bind_eq_ok_iff.1 h
  obtain ⟨types, _, h⟩ := Outcome.bind_eq_ok_iff.1 h
  obtain ⟨fields, hfields, h⟩ := Outcome.bind_eq_ok_iff.1 h
  obtain ⟨_, _, h⟩ := Outcome.bind_eq_ok_iff.1 h
  cases h
  intro s' hs f hf
  cases hs
  exact fieldEntries_hasPath ((collect_mem hfields hf).resolve_left (by simp))

/-- So it is where there may be no schema at all. -/
theorem Schema.hasPaths_of_declared {schema : Option Schema}
    (hs : ∀ s ∈ schema, ∃ d, Schema.declare d = .ok s) : HasPaths schema := by
  intro s hsome
  obtain ⟨d, hd⟩ := hs s hsome
  exact Schema.hasPaths_of_declare hd s rfl

/-- A field that is found on its own has one value, whether it is read for a predicate or for a
cursor. -/
theorem Field.read_ref {f : Field} {r : FieldRef} (hf : f.IsDirect) (hp : f.HasPath)
    (hr : f.ref? = some r) (schema : Option Schema) (aliases : Aliases) (row : Value) :
    r.read aliases row = f.read schema row := by
  cases f with
  | plain name t =>
    cases hr
    simp [FieldRef.read, FieldRef.of, FieldRef.column]
  | join name binding column path t ops =>
    cases hr
    have hb : binding.isSome = true := hf
    have hpath : path ≠ [] := hp
    have hne : path.isEmpty = false := by simpa using hpath
    simp only [FieldRef.read, FieldRef.of, hb, hne, if_true, Bool.false_eq_true, if_false]
    rfl
  | isAlias | composite | custom => exact hf.elim

theorem Field.hasPath_of_resolve {schema : Option Schema} (hs : Schema.HasPaths schema)
    {n : String} {f : Field} (h : resolveField schema n = .ok f) : f.HasPath := by
  cases schema with
  | none =>
    cases h
    trivial
  | some s => exact hs s rfl f (List.mem_of_find?_eq_some (Schema.resolve_eq_ok_iff.1 h))

theorem Field.ref?_of_isDirect {f : Field} (hf : f.IsDirect) : ∃ r, f.ref? = some r := by
  cases f with
  | plain | join => exact ⟨_, rfl⟩
  | isAlias | composite | custom => exact hf.elim

/-! ### Values to sort by -/

/-- The value of a field in a row, by the name of the field. -/
def sortValue (schema : Option Schema) (name : String) (row : Value) : Except Error Value := do
  (← resolveField schema name).read schema row

namespace Ranking

/-- A comparison function for values of a type, if they are totally ordered. -/
noncomputable def comparison (S : Value → Prop) : Value → Value → Ordering :=
  open Classical in if h : Value.TotallyOrdered S then h.choose else fun _ _ => .eq

instance (S : Value → Prop) : TransCmp (comparison S) := by
  unfold comparison
  split
  · next h => exact h.choose_spec.1
  · exact { eq_swap := rfl, isLE_trans := fun _ _ => rfl }

theorem comparison_compares {S : Value → Prop} (h : Value.TotallyOrdered S) {a b : Value}
    (ha : S a) (hb : S b) : Value.ComparesBy (comparison S) a b := by
  unfold comparison
  rw [dif_pos h]
  exact h.choose_spec.2 a b ha hb

/-- The ranking by fields whose values are of given types. -/
noncomputable def typed (schema : Option Schema) (S : String → Value → Prop) : Ranking where
  ref n :=
    match resolveField schema n with
    | .ok f => f.ref?.getD default
    | .error _ => default
  value n row :=
    match sortValue schema n row with
    | .ok v => v
    | .error _ => .null
  cmp n := comparison (S n)
  total _ := inferInstance

variable {schema : Option Schema} {aliases : Aliases} {S : String → Value → Prop}
  {order : SortOrder} {row a b : Value}

/-- All fields of the ordering are found on their own. -/
def Direct (schema : Option Schema) (names : List String) : Prop :=
  ∀ n ∈ names, ∃ f, resolveField schema n = .ok f ∧ f.IsDirect

/-- The fields of the row have values, which are null or of the given types. -/
def Holds (schema : Option Schema) (S : String → Value → Prop) (names : List String)
    (row : Value) : Prop :=
  ∀ n ∈ names, ∃ v, sortValue schema n row = .ok v ∧ (v = .null ∨ S n v)

theorem value_of_sortValue {n : String} {v : Value} (h : sortValue schema n row = .ok v) :
    (typed schema S).value n row = v := by
  simp [typed, h]

theorem mem_names {t : SortTerm} (ht : t ∈ order) : t.field ∈ order.names :=
  List.mem_map_of_mem ht

theorem locates_typed (h : Direct schema order.names) : (typed schema S).Locates schema order := by
  intro t ht
  obtain ⟨f, hf, hdirect⟩ := h t.field (mem_names ht)
  obtain ⟨r, hr⟩ := Field.ref?_of_isDirect hdirect
  exact ⟨f, hf, hdirect, by simp [typed, hf, hr]⟩

theorem reads_typed (hs : Schema.HasPaths schema) (h : Direct schema order.names)
    (hrow : Holds schema S order.names row) : (typed schema S).Reads aliases order row := by
  intro t ht
  obtain ⟨f, hf, hdirect, href⟩ := locates_typed (S := S) h t ht
  obtain ⟨v, hv, _⟩ := hrow t.field (mem_names ht)
  rw [value_of_sortValue hv,
    Field.read_ref hdirect (Field.hasPath_of_resolve hs hf) href schema aliases]
  simpa [sortValue, hf] using hv

theorem full_typed (hrow : Holds schema S order.names row)
    (hfull : ∀ n ∈ order.names, sortValue schema n row ≠ .ok .null) :
    (typed schema S).Full order row := by
  intro t ht
  obtain ⟨v, hv, _⟩ := hrow t.field (mem_names ht)
  rw [value_of_sortValue hv]
  rintro rfl
  exact hfull t.field (mem_names ht) hv

theorem compares_typed (h : ∀ n ∈ order.names, Value.TotallyOrdered (S n))
    (ha : Holds schema S order.names a) (hb : Holds schema S order.names b) :
    (typed schema S).Compares order a b := by
  intro t ht hna hnb
  obtain ⟨v, hv, hva⟩ := ha t.field (mem_names ht)
  obtain ⟨w, hw, hwb⟩ := hb t.field (mem_names ht)
  rw [value_of_sortValue hv] at hna ⊢
  rw [value_of_sortValue hw] at hnb ⊢
  exact comparison_compares (h t.field (mem_names ht)) (hva.resolve_left hna) (hwb.resolve_left hnb)

end Ranking

/-! ### Cursors of rows -/

namespace Cursor

variable {schema : Option Schema} {row : Value}

theorem lookup_put (c : Cursor) (f g : String) (v : Value) :
    (c.put f v).lookup g = if g = f then some v else c.lookup g := by
  induction c with
  | nil =>
    by_cases hg : g = f
    · simp [put, hg]
    · have hgf : (g == f) = false := by simpa using hg
      simp [put, List.lookup_cons, hgf, hg]
  | cons e c ih =>
    obtain ⟨k, w⟩ := e
    by_cases hk : k = f
    · subst hk
      by_cases hg : g = k
      · simp [put, hg]
      · have hgk : (g == k) = false := by simpa using hg
        simp [put, List.lookup_cons, hgk, hg]
    · by_cases hg : g = k
      · simp [put, hk, hg]
      · have hgk : (g == k) = false := by simpa using hg
        simp [put, hk, List.lookup_cons, hgk, ih]

theorem lookup_foldlM {names : List String} {done c : Cursor}
    (h : names.foldlM (fun (c : Cursor) n => do
      return c.put n (← (← resolveField schema n).read schema row)) done = .ok c) (n : String) :
    (n ∈ names → ∃ v, sortValue schema n row = .ok v ∧ c.lookup n = some v) ∧
      (n ∉ names → c.lookup n = done.lookup n) := by
  induction names generalizing done with
  | nil =>
    cases h
    simp
  | cons m names ih =>
    rw [List.foldlM_cons] at h
    obtain ⟨next, hnext, h⟩ := Outcome.bind_eq_ok_iff.1 h
    have hm : ∃ v, sortValue schema m row = .ok v ∧ next = done.put m v := by
      obtain ⟨f, hf, hnext⟩ := Outcome.bind_eq_ok_iff.1 hnext
      obtain ⟨v, hv, hnext⟩ := Outcome.bind_eq_ok_iff.1 hnext
      cases hnext
      exact ⟨v, by simp [sortValue, hf, hv], rfl⟩
    obtain ⟨v, hv, rfl⟩ := hm
    obtain ⟨hmem, hnot⟩ := ih h
    by_cases hn : n ∈ names
    · exact ⟨fun _ => hmem hn, fun h => absurd (List.mem_cons_of_mem _ hn) h⟩
    · rw [hnot hn, lookup_put]
      by_cases hnm : n = m
      · subst hnm
        exact ⟨fun _ => ⟨v, hv, by simp⟩, fun h => absurd List.mem_cons_self h⟩
      · rw [if_neg hnm]
        refine ⟨fun h => ?_, fun _ => rfl⟩
        rcases List.mem_cons.1 h with h | h
        · exact absurd h hnm
        · exact absurd h hn

/-- The cursor of a row holds the values of the named fields. -/
theorem lookup_ofRow {names : List String} {c : Cursor} (h : ofRow schema row names = .ok c)
    {n : String} (hn : n ∈ names) : ∃ v, sortValue schema n row = .ok v ∧ c.lookup n = some v :=
  (lookup_foldlM h n).1 hn

/-- A row has a cursor for fields that have values in it, even if some of them are named twice. -/
theorem exists_ofRow {names : List String} (h : ∀ n ∈ names, ∃ v, sortValue schema n row = .ok v) :
    ∃ c, ofRow schema row names = .ok c := by
  suffices ∀ done : Cursor, ∃ c, names.foldlM (fun (c : Cursor) n => do
      return c.put n (← (← resolveField schema n).read schema row)) done = .ok c from this []
  induction names with
  | nil => exact fun done => ⟨done, rfl⟩
  | cons n names ih =>
    intro done
    obtain ⟨v, hv⟩ := h n (by simp)
    obtain ⟨f, hf, hv⟩ := Outcome.bind_eq_ok_iff.1 hv
    obtain ⟨c, hc⟩ := ih (fun m hm => h m (by simp [hm])) (done.put n v)
    exact ⟨c, by rw [List.foldlM_cons, hf, Outcome.ok_bind, hv]; exact hc⟩

end Cursor

/-- The cursor of a row is bounded by what the row is ranked by. -/
theorem Ranking.bound?_ofRow {schema : Option Schema} {S : String → Value → Prop}
    {names : List String} {row : Value} {c : Cursor} (h : Cursor.ofRow schema row names = .ok c)
    {n : String} (hn : n ∈ names) (hfull : sortValue schema n row ≠ .ok .null) :
    c.bound? n = some ((typed schema S).value n row) := by
  obtain ⟨v, hv, hlookup⟩ := Cursor.lookup_ofRow h hn
  rw [value_of_sortValue hv]
  simp only [Cursor.bound?, hlookup]
  split
  · next heq =>
    cases heq
    exact absurd hv hfull
  · rfl

end Sieve
