import Sieve.Proofs.Filter.Compiling
import Sieve.Proofs.Observation.Exposed
import Sieve.Proofs.Validation.Declared
import Sieve.Plan.Compile

/-!
# Plans read exposed fields

Everything that is compiled from a request with declared fields refers to exposed fields only: the
predicates of its filters, the boundary of its cursor and the keys of its ordering.

* `Filter.selectAll_reads`, `Cursor.boundary_reads`, `SortOrder.keys_reads`: the parts of a plan;
* `Request.plan_reads`, `Request.lookback_reads`: the plans of a request.
-/

namespace Sieve

open Traced

variable {s : Schema}

/-- The predicate refers to exposed fields only. -/
def Schema.ReadsExposed (s : Schema) (p : Predicate) : Prop :=
  ∀ r ∈ p.fields, s.Refers r

theorem Schema.readsExposed_const (b : Bool) : s.ReadsExposed (.const b) := by
  intro r hr
  cases hr

theorem Schema.readsExposed_all {ps : List Predicate} (h : ∀ p ∈ ps, s.ReadsExposed p) :
    s.ReadsExposed (.all ps) := by
  intro r hr
  obtain ⟨p, hp, hr⟩ := Predicate.mem_fields_all.1 hr
  exact h p hp r hr

theorem Schema.readsExposed_any {ps : List Predicate} (h : ∀ p ∈ ps, s.ReadsExposed p) :
    s.ReadsExposed (.any ps) := by
  intro r hr
  obtain ⟨p, hp, hr⟩ := Predicate.mem_fields_any.1 hr
  exact h p hp r hr

/-! ### Filters -/

theorem Schema.exposed_closed (s : Schema) : s.Closed s.Exposed := by
  rintro n m hn ⟨name, members, hf, hm⟩
  exact .member hn hf hm

namespace Filter

mutual

theorem field_mem_names {f : Filter} : ∀ c ∈ f.conditions, c.field ∈ f.names := by
  match f with
  | condition c => simp [conditions, names]
  | group k fs => exact field_mem_namesOf

/-- Filters name the fields of their conditions. -/
theorem field_mem_namesOf {fs : List Filter} : ∀ c ∈ conditionsOf fs, c.field ∈ namesOf fs := by
  match fs with
  | [] => simp [conditionsOf]
  | f :: fs =>
    intro c hc
    rcases List.mem_append.1 hc with hc | hc
    · exact List.mem_append_left _ (field_mem_names c hc)
    · exact List.mem_append_right _ (field_mem_namesOf c hc)

end

theorem selectCondition_reads (hs : s.IsStored) {t : Setting} (ht : t.schema = some s)
    {c : Condition} (hc : s.isFilterable c.field = true) :
    Yields s.ReadsExposed (selectCondition t c) := by
  unfold selectCondition
  split
  · exact yields_pure (Schema.readsExposed_const true)
  · rw [ht]
    refine yields_bind (P := fun f => s.get? c.field = some f)
      (yields_lift fun f hf => (Schema.resolveField_some _ _ _).1 hf) fun f hf => ?_
    have hstored := Schema.isStored_of_get? hs hf
    cases f with
    | custom => exact hstored.elim
    | plain | isAlias | join | composite =>
      exact Field.selectWithin_found s.exposed_closed _ _ _ _ (.filterable hc) hf

theorem selectAll_reads (hs : s.IsStored) {t : Setting} (ht : t.schema = some s)
    {fs : List Filter} (hf : ∀ n ∈ namesOf fs, s.isFilterable n = true) :
    Yields s.ReadsExposed (selectAll t fs) :=
  selectAll_yields fun c hc => selectCondition_reads hs ht (hf _ (field_mem_namesOf c hc))

end Filter

/-! ### Orderings and cursors -/

theorem Cursor.bound_reads {r : FieldRef} (hr : s.Refers r) (d : Direction) (v : Value)
    {inner : Option Predicate} (hi : ∀ p ∈ inner, s.ReadsExposed p) :
    s.ReadsExposed (Cursor.bound r d v inner) := by
  have hcompare : ∀ c : Comparison, s.ReadsExposed (.compare r c v) := by
    intro c q hq
    rw [List.mem_singleton.1 hq]
    exact hr
  cases inner with
  | none => exact hcompare _
  | some p =>
    refine Schema.readsExposed_all fun q hq => ?_
    rcases List.mem_cons.1 hq with rfl | hq
    · exact hcompare _
    · rw [List.mem_singleton.1 hq]
      refine Schema.readsExposed_any fun q' hq' => ?_
      rcases List.mem_cons.1 hq' with rfl | hq'
      · exact hcompare _
      · rw [List.mem_singleton.1 hq']
        exact hi p rfl

theorem Cursor.boundary_reads (c : Cursor) {order : SortOrder}
    (ho : ∀ t ∈ order, s.Exposed t.field) :
    Yields s.ReadsExposed (c.boundary (some s) order) := by
  induction order with
  | nil => exact yields_pure (Schema.readsExposed_const true)
  | cons t rest ih =>
    unfold Cursor.boundary
    refine yields_bind (ih fun u hu => ho u (by simp [hu])) fun inner hinner => ?_
    refine yields_bind (P := fun f => s.get? t.field = some f)
      (yields_lift fun f hf => (Schema.resolveField_some _ _ _).1 hf) fun f hf => ?_
    split
    · exact yields_fail _
    · exact yields_after fun _ => yields_pure hinner
    · -- A field without a bound leaves the predicate as it is.
      split
      · exact yields_pure hinner
      · refine yields_bind (P := fun found => Field.ref? _ = some found)
          (fun _ h => Field.ref_eq_ok_iff.1 h) fun found hfound => yields_pure ?_
        refine Cursor.bound_reads ⟨_, _, ho t (by simp), hf, hfound⟩ _ _ fun p hp => ?_
        split at hp
        · cases hp
        · cases hp
          exact hinner

namespace SortOrder

theorem expandTerm_exposed {t : SortTerm} {expanded : SortOrder} (ht : s.Exposed t.field)
    (h : expandTerm s t = .ok expanded) : ∀ u ∈ expanded, s.Exposed u.field := by
  unfold expandTerm at h
  split at h
  · next hf =>
    cases h
    intro u hu
    obtain ⟨m, hm, rfl⟩ := List.mem_map.1 hu
    exact .member ht hf hm
  · cases h
  · cases h
    intro u hu
    rw [List.mem_singleton.1 hu]
    exact ht

theorem keys_reads {order : SortOrder} {keys : List SortKey} (ho : ∀ t ∈ order, s.Exposed t.field)
    (h : order.keys (some s) = .ok keys) : ∀ k ∈ keys, s.Refers k.ref := by
  obtain ⟨expanded, hexp, hkeys⟩ := Outcome.bind_eq_ok_iff.1 h
  obtain ⟨parts, hparts, hexp⟩ := Outcome.bind_eq_ok_iff.1 hexp
  cases hexp
  intro k hk
  obtain ⟨u, hu, hkey⟩ := Outcome.exists_of_mem_mapM hkeys hk
  obtain ⟨part, hpart, hu⟩ := List.mem_flatten.1 hu
  obtain ⟨t, ht, hterm⟩ := Outcome.exists_of_mem_mapM hparts hpart
  have hexposed := expandTerm_exposed (ho t ht) hterm u hu
  obtain ⟨f, hf, hkey⟩ := Outcome.bind_eq_ok_iff.1 hkey
  obtain ⟨r, hr, hkey⟩ := Outcome.bind_eq_ok_iff.1 hkey
  cases hkey
  exact ⟨_, f, hexposed, (Schema.resolveField_some _ _ _).1 hf, Field.ref_eq_ok_iff.1 hr⟩

end SortOrder

/-! ### Plans -/

/-- The plan refers to exposed fields only. -/
structure Schema.PlansExposed (s : Schema) (p : Plan) : Prop where
  predicate : s.ReadsExposed p.predicate
  ordering : ∀ k ∈ p.ordering, s.Refers k.ref

theorem Schema.readsExposed_and {p q : Predicate} (hp : s.ReadsExposed p)
    (hq : s.ReadsExposed q) : s.ReadsExposed (p.and q) := by
  refine Schema.readsExposed_all fun p' hp' => ?_
  rcases List.mem_cons.1 hp' with rfl | hp'
  · exact hp
  · rw [List.mem_singleton.1 hp']
    exact hq

theorem Schema.readsExposed_not {p : Predicate} (hp : s.ReadsExposed p) :
    s.ReadsExposed (.not p) := by
  intro r hr
  rw [Predicate.fields_not] at hr
  exact hp r hr

namespace Request

variable {r : Request} {o : Options}

theorem predicate_reads (hs : s.IsStored) (hr : r.Declared s) :
    Yields s.ReadsExposed (r.predicate (some s) o) := by
  refine yields_bind (P := fun t => t.schema = some s) (yields_lift fun t ht => ?_) fun t ht =>
    Filter.selectAll_reads hs ht hr.filters
  obtain ⟨extra, _, ht⟩ := Outcome.bind_eq_ok_iff.1 ht
  cases ht
  rfl

theorem sort_exposed (hr : r.Declared s) : ∀ t ∈ r.sort, s.Exposed t.field := by
  intro t ht
  refine .sortable (hr.ordering _ ?_)
  rw [← sort_names]
  exact List.mem_map_of_mem ht

theorem direct_exposed (hr : r.Declared s) : ∀ t ∈ r.direct, s.Exposed t.field := by
  unfold direct
  split
  · intro t ht
    obtain ⟨u, hu, rfl⟩ := List.mem_map.1 ht
    exact sort_exposed hr u hu
  · exact sort_exposed hr

theorem cursorPlan_reads (hs : s.IsStored) (hr : r.Declared s) :
    Yields s.PlansExposed (r.cursorPlan (some s) o) := by
  have hkeys : ∀ p, s.ReadsExposed p → Yields s.PlansExposed (do
      let keys ← Traced.lift (r.direct.keys (some s))
      return ⟨p, keys, ← Traced.lift r.sizeAndOne, .null, r.isBackward⟩) := by
    intro p hp
    refine yields_bind (P := fun keys => ∀ k ∈ keys, s.Refers k.ref) (fun keys hkeys =>
      SortOrder.keys_reads (direct_exposed hr) hkeys) fun keys hkeys => ?_
    exact yields_after fun _ => yields_pure ⟨hp, hkeys⟩
  unfold cursorPlan
  refine yields_bind (predicate_reads hs hr) fun p hp => ?_
  refine yields_after fun pivot => ?_
  cases pivot with
  | none => exact yields_bind (yields_pure hp) hkeys
  | some c => exact yields_bind (Cursor.boundary_reads c (direct_exposed hr)) fun b hb =>
      yields_bind (yields_pure (Schema.readsExposed_and hp hb)) hkeys

theorem offsetPlan_reads (hs : s.IsStored) (hr : r.Declared s) :
    Yields s.PlansExposed (r.offsetPlan (some s) o) := by
  unfold offsetPlan
  refine yields_bind (predicate_reads hs hr) fun p hp => ?_
  refine yields_bind (P := fun keys => ∀ k ∈ keys, s.Refers k.ref) (fun keys hkeys =>
    SortOrder.keys_reads (sort_exposed hr) hkeys) fun keys hkeys => ?_
  exact yields_after fun _ => yields_pure ⟨hp, hkeys⟩

/-- The plan of a request refers to exposed fields only. -/
theorem plan_reads (hs : s.IsStored) (hr : r.Declared s) :
    Yields s.PlansExposed (r.plan (some s) o) := by
  unfold plan
  by_cases h : r.byCursor = true
  · simp only [h, if_true]
    exact yields_bind (cursorPlan_reads hs hr) fun p hp =>
      yields_after fun _ => yields_pure hp
  · simp only [h, if_false, Bool.false_eq_true]
    exact yields_bind (offsetPlan_reads hs hr) fun p hp =>
      yields_after fun _ => yields_pure hp

/-- The plan for the other side of the cursor refers to exposed fields only. -/
theorem lookback_reads (hs : s.IsStored) (hr : r.Declared s) :
    Yields (∀ p ∈ ·, s.PlansExposed p) (r.lookback (some s) o) := by
  unfold lookback
  split
  · refine yields_after fun pivot => ?_
    cases pivot with
    | none => exact yields_pure (by simp)
    | some c =>
      refine yields_bind (predicate_reads hs hr) fun p hp => ?_
      refine yields_bind (Cursor.boundary_reads c (direct_exposed hr)) fun b hb => yields_pure ?_
      intro plan hplan
      cases hplan
      exact ⟨Schema.readsExposed_and hp (Schema.readsExposed_not hb), by simp⟩
  · exact yields_pure (by simp)

end Request

end Sieve
