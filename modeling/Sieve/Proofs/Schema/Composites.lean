import Sieve.Cursor.Pivot
import Sieve.Proofs.Filter.Compiling
import Sieve.Proofs.Value.Comparing
import Sieve.SortOrder

/-!
# Composites that can be used

Composites are expanded when rows are read, when filters are compiled and when orderings are. Declaring a
schema does not look into composites, so whether this works is decided by what is within them: no
composite may be within itself, filterable composites may hold no alias and no custom field, and the
members of a sortable composite have to be found in rows.

* `Schema.Sound`: what would have to be checked of composites;
* `Schema.Usable`: reading, filtering and ordering work for all fields that are declared for it;
* `Schema.declare_usable`: a declared schema is usable if and only if its composites are sound;
* `Schema.selfHolding_not_usable`: a declared schema with a composite that holds itself.
-/

namespace Sieve

open Outcome

/-! ### Reading -/

namespace Value

/-- What reading a path off a row fails with. -/
def Unreadable (e : Error) : Prop :=
  e = .mismatch ∨ e = .invalidOperation

theorem step_fails (v key : Value) : FailsOnly Unreadable (v.step key) := by
  unfold step
  split
  · exact failsOnly_ok _
  · exact failsOnly_ok _
  · split
    · refine FailsOnly.bind (failsOnly_findM? fun e _ => ?_) fun found => failsOnly_ok _
      exact fun err herr => .inr (equal_fails _ _ err herr)
    · exact failsOnly_error (.inl rfl)
  · exact failsOnly_ok _
  · exact failsOnly_error (.inl rfl)

theorem atPath_fails (v : Value) (path : List Value) : FailsOnly Unreadable (v.atPath path) := by
  induction path generalizing v with
  | nil => exact failsOnly_ok _
  | cons key path ih => exact (step_fails v key).bind fun w => ih w

end Value

namespace Field

variable {s : Schema} {n m : String} {f : Field} {row : Value}

/-- Fields can be read if there are enough levels for what is within them. -/
theorem readWithin_fails (hc : s.Checked) (hs : s.Acyclic) (hf : s.get? n = some f) {depth : Nat}
    (hdepth : s.height n < depth) :
    FailsOnly Value.Unreadable (readWithin (some s) row depth f) := by
  induction depth generalizing n f with
  | zero => exact absurd hdepth (Nat.not_lt_zero _)
  | succ depth ih =>
    cases f with
    | plain | isAlias | custom => exact failsOnly_ok _
    | join => exact Value.atPath_fails _ _
    | composite name members =>
      unfold readWithin
      refine FailsOnly.bind (failsOnly_mapM fun m hm => ?_) fun vs => failsOnly_ok _
      have hnm : s.Member n m := ⟨_, _, hf, hm⟩
      obtain ⟨g, hg⟩ := hc.member n m hnm
      have hlt := Schema.height_lt hs hnm hg
      rw [show resolveField (some s) m = .ok g from Schema.resolve_eq_ok_iff.2 hg, ok_bind]
      exact ih hg (by omega)

/-- Where there is no row, only endless fields cannot be read. -/
theorem readWithin_null_fails (hc : s.Checked) (hf : s.get? n = some f) (depth : Nat) :
    FailsOnly (· = .endless) (readWithin (some s) .null depth f) := by
  induction depth generalizing n f with
  | zero => exact failsOnly_error rfl
  | succ depth ih =>
    cases f with
    | plain | isAlias | custom => exact failsOnly_ok _
    | join name binding column path t ops =>
      intro e he
      cases he.symm.trans (Value.atPath_null path)
    | composite name members =>
      unfold readWithin
      refine FailsOnly.bind (failsOnly_mapM fun m hm => ?_) fun vs => failsOnly_ok _
      obtain ⟨g, hg⟩ := hc.member n m ⟨_, _, hf, hm⟩
      rw [show resolveField (some s) m = .ok g from Schema.resolve_eq_ok_iff.2 hg, ok_bind]
      exact ih hg

/-- A composite within itself is never read, however many levels there are. -/
theorem readWithin_ne_ok (hn : s.Within n n) (hf : s.get? n = some f) (depth : Nat) (v : Value) :
    readWithin (some s) row depth f ≠ .ok v := by
  induction depth generalizing n f v with
  | zero => nofun
  | succ depth ih =>
    intro h
    -- The next member on the cycle would have been read before.
    obtain ⟨m, ⟨name, members, hcomposite, hm⟩, hback⟩ := Schema.exists_member_within hn
    cases hf.symm.trans hcomposite
    unfold readWithin at h
    obtain ⟨vs, hvs, _⟩ := bind_eq_ok_iff.1 h
    obtain ⟨w, _, hw⟩ := exists_answer_of_mapM hvs hm
    obtain ⟨g, hg, hw⟩ := bind_eq_ok_iff.1 hw
    exact ih hback (Schema.resolve_eq_ok_iff.1 hg) w hw

/-! ### Filtering -/

/-- Where a composite is tested for being empty, its members are, and the predicate refers to what
theirs refer to. -/
theorem selectWithin_empty_member (hf : s.get? n = some f) (hm : s.Member n m)
    {policy : CompositePolicy} {v : Value} {depth : Nat} {p : Predicate}
    (h : (selectWithin (some s) policy .empty v f depth).outcome = .ok p) :
    ∃ lower g q, s.get? m = some g ∧ (selectWithin (some s) .warn .empty v g lower).outcome = .ok q ∧
      ∀ r ∈ q.fields, r ∈ p.fields := by
  obtain ⟨name, members, hcomposite, hmem⟩ := hm
  cases hf.symm.trans hcomposite
  cases depth with
  | zero => cases h
  | succ depth =>
    unfold selectWithin at h
    simp only [show Operator.refusesComposite .empty = false from rfl,
      show Operator.isMultiTerm .empty = false from rfl, Bool.false_eq_true, if_false,
      Traced.bind_outcome, Traced.mapM_outcome, Traced.lift_outcome] at h
    obtain ⟨fields, hfields, h⟩ := bind_eq_ok_iff.1 h
    obtain ⟨ps, hps, h⟩ := bind_eq_ok_iff.1 h
    cases h
    obtain ⟨g, hg, hgm⟩ := exists_answer_of_mapM hfields hmem
    obtain ⟨q, hq, hgq⟩ := exists_answer_of_mapM hps hg
    refine ⟨depth, g, q, Schema.resolve_eq_ok_iff.1 hgm, hgq, fun r hr => ?_⟩
    exact Predicate.mem_fields_conjunction.2 ⟨q, hq, hr⟩

/-- Where what is within a composite can be tested for being empty without a reference to an alias, it is
no alias and no custom field. -/
theorem kind_of_selectWithin_empty {policy : CompositePolicy} {depth : Nat} {p : Predicate}
    (hf : s.get? n = some f)
    (h : (selectWithin (some s) policy .empty (.bool true) f depth).outcome = .ok p)
    (hp : ∀ r ∈ p.fields, r.isAlias = false) : f.kind ≠ .isAlias ∧ f.kind ≠ .custom := by
  cases depth with
  | zero => cases h
  | succ depth =>
    cases f with
    | plain | join | composite => exact ⟨nofun, nofun⟩
    | custom => cases h
    | isAlias name =>
      cases h
      cases hp _ (List.mem_singleton.2 rfl)

end Field

namespace Schema

variable {s : Schema} {n m : String}

/-- The condition is on a field that filters may use and that has no filter function. -/
def Filters (s : Schema) (c : Condition) : Prop :=
  c.field ∈ s.filterable ∧ ∀ f, s.get? c.field = some f → f.kind ≠ .custom

/-- The condition has no value, or one of the form that its operator takes, and the operator is admitted
for composites where its field is one. -/
def Fits (s : Schema) (policy : CompositePolicy) (c : Condition) : Prop :=
  c.ignored = true ∨ c.op.Takes c.value ∧
    ∀ f, s.get? c.field = some f → f.kind = .composite → c.op.refusesComposite = true →
      policy ≠ .refuse

/-- What would have to be checked of composites. -/
structure Sound (s : Schema) : Prop where
  /-- No composite is within itself. -/
  acyclic : s.Acyclic
  /-- No alias and no custom field is within a filterable composite. -/
  filterable : ∀ n ∈ s.filterable, ∀ m f, s.Within n m → s.get? m = some f →
    f.kind ≠ .isAlias ∧ f.kind ≠ .custom
  /-- The members of a sortable composite are columns, joined columns and aliases. -/
  sortable : ∀ n ∈ s.sortable, ∀ m f, s.Member n m → s.get? m = some f →
    f.kind = .plain ∨ f.kind = .isAlias ∨ f.kind = .join

/-- Fields work for what they are declared for. -/
structure Usable (s : Schema) : Prop where
  /-- Expanding a field through its members ends, whatever the row. -/
  reads : ∀ n f, s.get? n = some f → ∀ row, f.read (some s) row ≠ .error .endless
  /-- Filters on filterable fields are compiled. -/
  filters : ∀ (t : Filter.Setting) (fs : List Filter), t.schema = some s →
    (∀ c ∈ Filter.conditionsOf fs, s.Filters c ∧ s.Fits t.policy c) →
    ∃ p, (Filter.selectAll t fs).outcome = .ok p
  /-- Their predicates refer to no alias. -/
  unaliased : ∀ (t : Filter.Setting) (fs : List Filter), t.schema = some s →
    (∀ c ∈ Filter.conditionsOf fs, s.Filters c) →
    Traced.Yields (∀ r ∈ ·.fields, r.isAlias = false) (Filter.selectAll t fs)
  /-- Orderings by sortable fields have keys. -/
  orders : ∀ order : SortOrder, (∀ t ∈ order, t.field ∈ s.sortable) →
    ∃ keys, order.keys (some s) = .ok keys

/-! ### Sound composites are usable -/

/-- The name is that of a field, or within it, which is no alias and no custom field. -/
def Plainly (s : Schema) (n : String) : Prop :=
  ∀ m f, Relation.ReflTransGen s.Member n m → s.get? m = some f →
    f.kind ≠ .isAlias ∧ f.kind ≠ .custom

theorem plainly_closed (s : Schema) : s.Closed s.Plainly :=
  fun _ _ hn hm k f hk => hn k f (.head hm hk)

theorem Sound.plainly (hs : s.Sound) (hc : s.Checked) (hn : n ∈ s.filterable)
    (hcustom : ∀ f, s.get? n = some f → f.kind ≠ .custom) : s.Plainly n := by
  intro m f hm hf
  rcases Relation.reflTransGen_iff_eq_or_transGen.1 hm with rfl | hwithin
  · obtain ⟨g, hg, halias⟩ := hc.filterable m hn
    cases hf.symm.trans hg
    exact ⟨halias, hcustom f hf⟩
  · exact hs.filterable n hn m f hwithin hf

end Schema

namespace Filter

variable {s : Schema} {t : Setting} {c : Condition} {f : Field}

/-- A condition on a field without a filter function is selected by its field. -/
theorem selectCondition_of_get? (ht : t.schema = some s) (hc : c.ignored = false)
    (hf : s.get? c.field = some f) (hcustom : f.kind ≠ .custom) :
    (selectCondition t c).outcome = (f.select (some s) t.policy c.op c.value).outcome := by
  unfold selectCondition
  rw [if_neg (by simp [hc]), ht, Traced.bind_outcome, Traced.lift_outcome,
    show resolveField (some s) c.field = .ok f from Schema.resolve_eq_ok_iff.2 hf, ok_bind]
  cases f with
  | custom => exact absurd rfl hcustom
  | _ => rfl

end Filter

namespace Schema

variable {s : Schema} {n m : String} {t : Filter.Setting} {c : Condition}

theorem Sound.exists_selectCondition (hs : s.Sound) (hc : s.Checked) (ht : t.schema = some s)
    (hfilters : s.Filters c) (hfits : s.Fits t.policy c) :
    ∃ p, (Filter.selectCondition t c).outcome = .ok p := by
  by_cases hignored : c.ignored = true
  · exact ⟨.const true, by rw [Filter.selectCondition, if_pos hignored]; rfl⟩
  · obtain ⟨hop, hpolicy⟩ := hfits.resolve_left hignored
    obtain ⟨f, hf, _⟩ := hc.filterable _ hfilters.1
    have hplainly := hs.plainly hc hfilters.1 hfilters.2
    rw [Filter.selectCondition_of_get? ht (by simpa using hignored) hf (hfilters.2 f hf)]
    exact Field.select_ok hc hs.acyclic s.plainly_closed (fun n f hn hf => (hn n f .refl hf).2) hop
      hplainly hf (hpolicy f hf)

theorem Sound.selectCondition_unaliased (hs : s.Sound) (hc : s.Checked) (ht : t.schema = some s)
    (hfilters : s.Filters c) :
    Traced.Yields (∀ r ∈ ·.fields, r.isAlias = false) (Filter.selectCondition t c) := by
  by_cases hignored : c.ignored = true
  · rw [Filter.selectCondition, if_pos hignored]
    exact Traced.yields_pure (by simp)
  · obtain ⟨f, hf, _⟩ := hc.filterable _ hfilters.1
    have hplainly := hs.plainly hc hfilters.1 hfilters.2
    intro p hp r hr
    rw [Filter.selectCondition_of_get? ht (by simpa using hignored) hf (hfilters.2 f hf)] at hp
    obtain ⟨m, g, hm, hg, href⟩ :=
      Field.selectWithin_found s.plainly_closed _ _ _ _ hplainly hf p hp r hr
    exact Bool.eq_false_iff.2 fun halias => (hm m g .refl hg).1 ((Field.ref?_isAlias href).1 halias)

/-! ### Ordering -/

/-- The name is that of a field that is found in rows. -/
def Found (s : Schema) (n : String) : Prop :=
  ∃ f, s.get? n = some f ∧ f.ref?.isSome = true

theorem found_iff_key {t : SortTerm} :
    s.Found t.field ↔ ∃ k, SortOrder.key (some s) t = .ok k := by
  constructor
  · rintro ⟨f, hf, href⟩
    obtain ⟨r, hr⟩ := Option.isSome_iff_exists.1 href
    refine ⟨⟨r, t.direction⟩, ?_⟩
    rw [SortOrder.key, show resolveField (some s) t.field = .ok f from resolve_eq_ok_iff.2 hf, ok_bind,
      Field.ref_eq_ok_iff.2 hr]
    rfl
  · rintro ⟨k, hk⟩
    obtain ⟨f, hf, hk⟩ := bind_eq_ok_iff.1 hk
    obtain ⟨r, hr, _⟩ := bind_eq_ok_iff.1 hk
    exact ⟨f, resolve_eq_ok_iff.1 hf, by rw [Field.ref_eq_ok_iff.1 hr]; rfl⟩

/-- Sortable fields expand to fields that are found in rows. -/
theorem Sound.exists_expandTerm (hs : s.Sound) (hc : s.Checked) {t : SortTerm}
    (ht : t.field ∈ s.sortable) :
    ∃ ts, SortOrder.expandTerm s t = .ok ts ∧ ∀ u ∈ ts, s.Found u.field := by
  obtain ⟨f, hf, hcustom⟩ := hc.sortable _ ht
  unfold SortOrder.expandTerm
  rw [hf]
  cases f with
  | custom => exact absurd rfl hcustom
  | plain | isAlias | join =>
    refine ⟨_, rfl, fun u hu => ?_⟩
    rw [List.mem_singleton.1 hu]
    exact ⟨_, hf, rfl⟩
  | composite name members =>
    refine ⟨_, rfl, fun u hu => ?_⟩
    obtain ⟨m, hm, rfl⟩ := List.mem_map.1 hu
    have hmember : s.Member t.field m := ⟨_, _, hf, hm⟩
    obtain ⟨g, hg⟩ := hc.member _ _ hmember
    exact ⟨g, hg, (Field.ref?_isSome_iff g).2 (hs.sortable _ ht m g hmember hg)⟩

/-- Fields that expand to fields that are found in rows can be ordered by. -/
theorem exists_keys {order : SortOrder}
    (h : ∀ t ∈ order, ∃ ts, SortOrder.expandTerm s t = .ok ts ∧ ∀ u ∈ ts, s.Found u.field) :
    ∃ keys, order.keys (some s) = .ok keys := by
  obtain ⟨parts, hparts⟩ : ∃ parts, order.mapM (SortOrder.expandTerm s) = .ok parts := by
    refine exists_mapM_ok fun t ht => ?_
    obtain ⟨ts, hts, _⟩ := h t ht
    exact ⟨ts, hts⟩
  simp only [SortOrder.keys, SortOrder.expand, hparts, ok_bind]
  refine exists_mapM_ok fun u hu => ?_
  obtain ⟨part, hpart, hu⟩ := List.mem_flatten.1 hu
  obtain ⟨t, ht, hterm⟩ := exists_of_mem_mapM hparts hpart
  obtain ⟨ts, hts, hfound⟩ := h t ht
  cases hterm.symm.trans hts
  exact found_iff_key.1 (hfound u hu)

theorem Sound.exists_keys (hs : s.Sound) (hc : s.Checked) {order : SortOrder}
    (ho : ∀ t ∈ order, t.field ∈ s.sortable) : ∃ keys, order.keys (some s) = .ok keys :=
  Schema.exists_keys fun t ht => hs.exists_expandTerm hc (ho t ht)

theorem Sound.usable (hs : s.Sound) (hc : s.Checked) : s.Usable where
  reads n f hf row he := by
    have hheight := s.height_le n
    have hdepth : s.height n < Field.levels (some s) := by
      simp only [Field.levels, Option.map_some, Option.getD_some]
      omega
    rcases Field.readWithin_fails hc hs.acyclic hf hdepth _ he with h | h <;> cases h
  filters t fs ht h := Filter.selectAll_ok_iff.2 fun c hcond =>
    hs.exists_selectCondition hc ht (h c hcond).1 (h c hcond).2
  unaliased t fs ht h := Filter.selectAll_yields fun c hcond =>
    hs.selectCondition_unaliased hc ht (h c hcond)
  orders order ho := hs.exists_keys hc ho

/-- Composites of columns are sound. -/
theorem sound_of_columns
    (h : ∀ n m f, s.Member n m → s.get? m = some f → f.kind = .plain ∨ f.kind = .join) : s.Sound := by
  have hmember : ∀ n m, s.Within n m → s.Member n m := by
    intro n m hwithin
    induction hwithin with
    | single hm => exact hm
    | tail _ hm ih =>
      -- Columns have no members, so nothing is further within.
      obtain ⟨name, members, hf, _⟩ := hm
      rcases h _ _ _ ih hf with hkind | hkind <;> cases hkind
  have hwithin : ∀ n m f, s.Within n m → s.get? m = some f → f.kind = .plain ∨ f.kind = .join :=
    fun n m f hm => h n m f (hmember n m hm)
  refine ⟨fun n hn => ?_, fun n _ m f hm hf => ?_, fun n _ m f hm hf => ?_⟩
  · obtain ⟨name, members, hf, _⟩ := id (hmember n n hn)
    rcases hwithin n n _ hn hf with hkind | hkind <;> cases hkind
  · rcases hwithin n m f hm hf with hkind | hkind <;> rw [hkind] <;> exact ⟨nofun, nofun⟩
  · exact (h n m f hm hf).imp_right .inr

/-! ### Usable composites are sound -/

theorem Usable.acyclic (hs : s.Usable) (hc : s.Checked) : s.Acyclic := by
  intro n hn
  obtain ⟨m, ⟨name, members, hf, hm⟩, hback⟩ := exists_member_within hn
  -- Where there is no row, nothing else than the cycle keeps the composite from being read.
  cases hread : Field.read (some s) .null (.composite name members) with
  | ok v => exact Field.readWithin_ne_ok hn hf _ v hread
  | error e =>
    cases Field.readWithin_null_fails hc hf _ e hread
    exact hs.reads n _ hf .null hread

/-- The condition that the field is empty. -/
def emptyCondition (n : String) : Condition := ⟨n, .empty, .bool true⟩

theorem Usable.exists_select_empty (hs : s.Usable) (hn : n ∈ s.filterable) {f : Field}
    (hf : s.get? n = some f) (hcustom : f.kind ≠ .custom) :
    ∃ p, (f.select (some s) .warn .empty (.bool true)).outcome = .ok p ∧
      ∀ r ∈ p.fields, r.isAlias = false := by
  have hfilters : s.Filters (emptyCondition n) :=
    ⟨hn, fun g hg => by cases hf.symm.trans hg; exact hcustom⟩
  have hfits : s.Fits .warn (emptyCondition n) :=
    .inr ⟨Operator.takes_other rfl rfl rfl _, fun _ _ _ hrefused => by cases hrefused⟩
  have hone : ∀ c ∈ Filter.conditionsOf [.condition (emptyCondition n)], c = emptyCondition n := by
    simp [Filter.conditionsOf, Filter.conditions]
  obtain ⟨q, hq⟩ := hs.filters ⟨some s, .warn, []⟩ [.condition (emptyCondition n)] rfl
    fun c hc => by rw [hone c hc]; exact ⟨hfilters, hfits⟩
  have hunaliased := hs.unaliased ⟨some s, .warn, []⟩ [.condition (emptyCondition n)] rfl
    (fun c hc => by rw [hone c hc]; exact hfilters) q hq
  unfold Filter.selectAll at hq
  rw [Traced.bind_outcome] at hq
  obtain ⟨ps, hps, hq⟩ := bind_eq_ok_iff.1 hq
  cases hq
  unfold Filter.selectEach at hps
  rw [Traced.bind_outcome] at hps
  obtain ⟨p, hp, hps⟩ := bind_eq_ok_iff.1 hps
  cases hps
  refine ⟨p, ?_, fun r hr => hunaliased r (Predicate.mem_fields_all.2 ⟨p, by simp, hr⟩)⟩
  rw [← hp]
  exact (Filter.selectCondition_of_get? (c := emptyCondition n) (t := ⟨some s, .warn, []⟩) rfl rfl hf
    hcustom).symm

theorem Usable.filterable (hs : s.Usable) (hn : n ∈ s.filterable) {f : Field} (hwithin : s.Within n m)
    (hf : s.get? m = some f) : f.kind ≠ .isAlias ∧ f.kind ≠ .custom := by
  -- Every name on the way can be tested for being empty without a reference to an alias.
  have hreached : ∀ k, s.Within n k → ∃ depth g p, s.get? k = some g ∧
      (Field.selectWithin (some s) .warn .empty (.bool true) g depth).outcome = .ok p ∧
      ∀ r ∈ p.fields, r.isAlias = false := by
    intro k hk
    induction hk with
    | single hmember =>
      obtain ⟨name, members, hg, _⟩ := id hmember
      obtain ⟨p, hp, hplain⟩ := hs.exists_select_empty hn hg nofun
      obtain ⟨lower, g, q, hgm, hq, hsub⟩ := Field.selectWithin_empty_member hg hmember hp
      exact ⟨lower, g, q, hgm, hq, fun r hr => hplain r (hsub r hr)⟩
    | tail _ hmember ih =>
      obtain ⟨depth, g, p, hg, hp, hplain⟩ := ih
      obtain ⟨lower, g', q, hgm, hq, hsub⟩ := Field.selectWithin_empty_member hg hmember hp
      exact ⟨lower, g', q, hgm, hq, fun r hr => hplain r (hsub r hr)⟩
  obtain ⟨depth, g, p, hg, hp, hplain⟩ := hreached m hwithin
  cases hf.symm.trans hg
  exact Field.kind_of_selectWithin_empty hf hp hplain

theorem Usable.sortable (hs : s.Usable) (hn : n ∈ s.sortable) (hm : s.Member n m) {f : Field}
    (hf : s.get? m = some f) : f.kind = .plain ∨ f.kind = .isAlias ∨ f.kind = .join := by
  obtain ⟨name, members, hcomposite, hmem⟩ := hm
  obtain ⟨keys, hkeys⟩ := hs.orders [⟨n, .asc⟩] (by simpa using hn)
  obtain ⟨order, horder, hkeys⟩ := bind_eq_ok_iff.1 hkeys
  obtain ⟨parts, hparts, horder⟩ := bind_eq_ok_iff.1 horder
  cases horder
  obtain ⟨part, hpart, hterm⟩ := exists_answer_of_mapM hparts (List.mem_singleton.2 rfl)
  simp only [SortOrder.expandTerm, hcomposite] at hterm
  cases hterm
  have hmterm : ⟨m, .asc⟩ ∈ (parts.flatten : SortOrder) :=
    List.mem_flatten.2 ⟨_, hpart, List.mem_map.2 ⟨m, hmem, rfl⟩⟩
  obtain ⟨k, _, hk⟩ := exists_answer_of_mapM hkeys hmterm
  obtain ⟨g, hg, href⟩ := found_iff_key.2 ⟨k, hk⟩
  cases hf.symm.trans hg
  exact (Field.ref?_isSome_iff f).1 href

/-- **A declared schema is usable if and only if its composites are sound.** -/
theorem declare_usable {d : Declarations} (h : declare d = .ok s) : s.Usable ↔ s.Sound := by
  have hc := checked_of_declare h
  constructor
  · intro hs
    exact ⟨hs.acyclic hc, fun n hn m f => hs.filterable hn,
      fun n hn m f hm hf => hs.sortable hn hm hf⟩
  · intro hs
    exact hs.usable hc

end Schema

/-! ### Names of people -/

/-- Declarations of a composite of two columns. -/
def Declarations.people : Declarations :=
  { (default : Declarations) with
    name := "people"
    fields := [("family", some (.text "string")), ("given", some (.text "string"))]
    filterable := .list [.text "full"]
    sortable := .list [.text "full"]
    composites := [("full", .list [.text "family", .text "given"])] }

/-- The schema of these declarations. -/
def Schema.people : Schema :=
  ⟨"people", [.plain "family" .string, .plain "given" .string, .composite "full" ["family", "given"]],
    ["full"], ["full"], .null, .null, .null, .null, .null⟩

theorem Schema.member_people {n m : String} (h : people.Member n m) :
    n = "full" ∧ (m = "family" ∨ m = "given") := by
  obtain ⟨name, members, hf, hm⟩ := h
  have hname : name = n := by simpa [Field.name] using List.find?_some hf
  have hmem := List.mem_of_find?_eq_some hf
  simp only [people, List.mem_cons, reduceCtorEq, Field.composite.injEq, List.not_mem_nil, or_false,
    false_or] at hmem
  obtain ⟨rfl, rfl⟩ := hmem
  exact ⟨hname.symm, by simpa using hm⟩

theorem Schema.kind_member_people {n m : String} {f : Field} (hm : people.Member n m)
    (hf : people.get? m = some f) : f.kind = .plain := by
  rcases (member_people hm).2 with rfl | rfl <;> cases hf <;> rfl

theorem Schema.sound_people : people.Sound :=
  sound_of_columns fun _ _ _ hm hf => .inl (kind_member_people hm hf)

/-- A composite of two columns can be used for filters and orderings. -/
theorem Schema.declare_usable_people :
    declare .people = .ok people ∧ (people.Usable ↔ people.Sound) ∧ people.Usable := by
  have hdeclare : declare .people = .ok people := rfl
  exact ⟨hdeclare, declare_usable hdeclare, (declare_usable hdeclare).2 sound_people⟩

/-- Declarations of a composite that is its own member. -/
def Declarations.selfHolding : Declarations :=
  { (default : Declarations) with
    name := "s"
    fields := [("a", none)]
    filterable := .list [.text "c"]
    sortable := .list [.text "c"]
    composites := [("c", .list [.text "c"])] }

/-- The schema of these declarations. -/
def Schema.selfHolding : Schema :=
  ⟨"s", [.plain "a" .any, .composite "c" ["c"]], ["c"], ["c"], .null, .null, .null, .null, .null⟩

/-- **A composite that is its own member is declared without an error**, and fails when it is read, when a
filter on it is compiled, and when an ordering by it is. -/
theorem Schema.selfHolding_not_usable :
    declare .selfHolding = .ok selfHolding ∧ selfHolding.Within "c" "c" ∧
      (Field.composite "c" ["c"]).read (some selfHolding) .null = .error .endless ∧
      (Filter.selectAll ⟨some selfHolding, .warn, []⟩
        [.condition ⟨"c", .like, .text "x"⟩]).outcome = .error .endless ∧
      SortOrder.keys (some selfHolding) [⟨"c", .asc⟩] = .error .missingAttribute ∧
      ¬selfHolding.Usable := by
  have hmember : selfHolding.Member "c" "c" := ⟨"c", ["c"], rfl, by simp⟩
  refine ⟨rfl, .single hmember, rfl, rfl, rfl, fun husable => ?_⟩
  obtain ⟨keys, hkeys⟩ := husable.orders [⟨"c", .asc⟩] (by simp [selfHolding])
  cases hkeys

end Sieve
