import Sieve.Proofs.Validation.Forest

/-!
# Valid requests name declared fields

Whatever the parameters are, a request that they become has filters on filterable fields and an
ordering by sortable fields only. It does not matter whether invalid parameters are rejected or
replaced, nor whether the ordering was given or stands in for a missing one.

* `Filter.names`: the fields that a filter names, at any depth of groups;
* `Params.validateWith_declared`: the fields of a valid request are declared for their use.
-/

namespace Sieve

mutual

/-- The fields that a filter names. -/
def Filter.names : Filter → List String
  | .condition c => [c.field]
  | .group _ fs => Filter.namesOf fs

/-- The fields that filters name. -/
def Filter.namesOf : List Filter → List String
  | [] => []
  | f :: fs => Filter.names f ++ Filter.namesOf fs

end

/-- The request names fields only where their schema admits them. -/
structure Request.Declared (s : Schema) (r : Request) : Prop where
  filters : ∀ n ∈ Filter.namesOf r.filters, s.isFilterable n = true
  ordering : ∀ n ∈ r.orderNames, s.isSortable n = true

namespace Validation

open Checking

variable {s : Schema} {o : Options}

/-! ### Filters -/

mutual

/-- What a draft becomes is filtered on filterable fields. -/
theorem becomes_filterable {skips : Bool} {d : Draft} {f : Filter}
    (h : d.Becomes (some s) skips f) : ∀ n ∈ f.names, s.isFilterable n = true := by
  match h with
  | .condition hc =>
    intro n hn
    rw [Filter.names, List.mem_singleton] at hn
    rw [hn]
    exact (hc.filterable s rfl).2
  | .group _ hfs _ => exact eachBecome_filterable hfs

theorem eachBecome_filterable {skips : Bool} {ds : List Draft} {fs : List Filter}
    (h : Draft.EachBecome (some s) skips ds fs) :
    ∀ n ∈ Filter.namesOf fs, s.isFilterable n = true := by
  match h with
  | .nil => simp [Filter.namesOf]
  | .keep hf hfs =>
    intro n hn
    rw [Filter.namesOf, List.mem_append] at hn
    rcases hn with hn | hn
    · exact becomes_filterable hf n hn
    · exact eachBecome_filterable hfs n hn
  | .skip _ hfs => exact eachBecome_filterable hfs

end

theorem filters_filterable {v : Value} {fs : List Filter} (h : Clean (filters (some s) o v) fs) :
    ∀ n ∈ Filter.namesOf fs, s.isFilterable n = true := by
  rcases filters_become h with ⟨rfl, _⟩ | ⟨ds, _, hfs⟩
  · simp [Filter.namesOf]
  · exact eachBecome_filterable hfs

/-! ### Orderings -/

theorem sortable_sortable {names : List String} {ds : Option (List Direction)} {p : OrderParams}
    (h : Clean (sortable s o names ds) p) :
    ∀ n ∈ p.1.getD [], s.isSortable n = true := by
  unfold sortable at h
  dsimp only at h
  split at h
  · next hempty =>
    cases h
    exact unsortable_isEmpty_iff.1 hempty
  · split at h
    · cases clean_report_bind_iff.1 h
      intro n hn
      rw [Option.getD_some, keep_names_sortable] at hn
      exact (List.mem_filter.1 hn).2
    · exact absurd h not_clean_complain_bind

theorem order_sortable {scalars : Scalars} {p : OrderParams}
    (h : Clean (order scalars (some s) o) p) : ∀ n ∈ p.1.getD [], s.isSortable n = true := by
  unfold order at h
  obtain ⟨⟨names, ds⟩, _, h⟩ := (clean_bind_iff fun (_, _) => by
    dsimp only
    split
    · exact adds_bind (adds_sortable _ _ _) fun _ => adds_pure _
    · exact adds_pure _).1 h
  cases names with
  | none =>
    cases h
    simp
  | some names =>
    obtain ⟨q, hq, h⟩ := (clean_bind_iff fun _ => adds_pure _).1 h
    cases h
    show ∀ n ∈ q.1.getD [], s.isSortable n = true
    exact sortable_sortable hq

/-! ### Requests -/

/-- The filters among the parameters, where options admit any. -/
def givenFilters (schema : Option Schema) (o : Options) (entries : List (Value × Value)) :
    Checking (List Filter) :=
  if o.filters then filters schema o ((Value.lookup? "filters" entries).getD .null) else pure []

theorem adds_givenFilters (schema : Option Schema) (entries : List (Value × Value)) :
    Adds (givenFilters schema o entries) := by
  unfold givenFilters
  split
  · exact adds_filters _
  · exact adds_pure _

theorem givenFilters_filterable {entries : List (Value × Value)} {fs : List Filter}
    (h : Clean (givenFilters (some s) o entries) fs) :
    ∀ n ∈ Filter.namesOf fs, s.isFilterable n = true := by
  unfold givenFilters at h
  split at h
  · exact filters_filterable h
  · cases h
    simp [Filter.namesOf]

/-- The last steps of the check of all parameters, once the ordering is known. -/
def rest (schema : Option Schema) (o : Options) (entries : List (Value × Value)) (given : Scalars)
    (used : Option Strategy) (q : OrderParams) : Checking Request := do
  let fs ← givenFilters schema o entries
  let (p, c) ← pagination schema o q.1 given.pagination used
  return ⟨fs, q.1, q.2, p, c⟩

theorem request_eq (schema : Option Schema) (entries : List (Value × Value)) :
    request schema o entries = (do
      let given ← scalars o (admitted o entries)
      let used ← Checking.lift (conflict given.pagination)
      let q ← order given schema o
      rest schema o (admitted o entries) given used q) := by
  unfold request rest givenFilters
  by_cases h : o.filters = true
  · simp only [h, if_true]
  · simp only [h, if_false, Bool.false_eq_true]

theorem clean_rest_iff {schema : Option Schema} {entries : List (Value × Value)} {given : Scalars}
    {used : Option Strategy} {q : OrderParams} {r : Request} :
    Clean (rest schema o entries given used q) r ↔
      q = (r.orderBy, r.directions) ∧ Clean (givenFilters schema o entries) r.filters ∧
        Clean (pagination schema o r.orderBy given.pagination used) (r.pagination, r.cursor) := by
  unfold rest
  rw [clean_bind_iff fun _ => adds_bind (adds_pagination _ _ _) fun _ => adds_pure _]
  simp only [clean_bind_iff fun _ => adds_pure _]
  constructor
  · rintro ⟨fs, hfs, ⟨p, c⟩, hp, h⟩
    cases h
    exact ⟨rfl, hfs, hp⟩
  · rintro ⟨rfl, hfs, hp⟩
    exact ⟨_, hfs, _, hp, clean_pure_iff.2 rfl⟩

theorem adds_rest (schema : Option Schema) (entries : List (Value × Value)) (given : Scalars)
    (used : Option Strategy) (q : OrderParams) :
    Adds (rest schema o entries given used q) :=
  adds_bind (adds_givenFilters _ _) fun _ =>
    adds_bind (adds_pagination _ _ _) fun _ => adds_pure _

/-- The check of all parameters is clean if each of its steps is. -/
theorem clean_request_iff {schema : Option Schema} {entries : List (Value × Value)} {r : Request} :
    Clean (request schema o entries) r ↔
      ∃ (given : Scalars) (used : Option Strategy),
        Clean (scalars o (admitted o entries)) given ∧
        conflict given.pagination = .ok used ∧
        Clean (order given schema o) (r.orderBy, r.directions) ∧
        Clean (givenFilters schema o (admitted o entries)) r.filters ∧
        Clean (pagination schema o r.orderBy given.pagination used) (r.pagination, r.cursor) := by
  rw [request_eq, clean_bind_iff fun _ => adds_bind (adds_lift _) fun _ =>
    adds_bind (adds_order _) fun _ => adds_rest _ _ _ _ _]
  refine exists_congr fun given => ?_
  rw [clean_bind_iff fun _ => adds_bind (adds_order _) fun _ => adds_rest _ _ _ _ _]
  simp only [clean_bind_iff fun _ => adds_rest _ _ _ _ _, clean_lift_iff, clean_rest_iff]
  constructor
  · rintro ⟨hgiven, used, hused, q, hq, rfl, h⟩
    exact ⟨used, hgiven, hused, hq, h⟩
  · rintro ⟨used, hgiven, hused, hq, h⟩
    exact ⟨hgiven, used, hused, _, hq, rfl, h⟩

end Validation

namespace Params

open Checking

/-- Parameters are valid if they can be read and the check of them is clean. -/
theorem validateWith_eq_ok_iff {params : Params} {schema : Option Schema} {o : Options}
    {r : Request} :
    (params.validateWith schema o).outcome = .ok r ↔
      ∃ entries, params.toEntries = .ok entries ∧
        Clean (Validation.request schema o entries) r := by
  unfold validateWith
  rw [Traced.bind_outcome, Outcome.bind_eq_ok_iff]
  refine exists_congr fun entries => and_congr Iff.rfl ?_
  rw [Traced.bind_outcome, Outcome.bind_eq_ok_iff]
  constructor
  · rintro ⟨⟨a, m⟩, ha, h⟩
    cases m with
    | nil =>
      cases h
      exact ha
    | cons e m => cases h
  · intro h
    exact ⟨(r, []), h, rfl⟩

/-- **A request that parameters become names declared fields only.** -/
theorem validateWith_declared {params : Params} {s : Schema} {o : Options} {r : Request}
    (h : (params.validateWith (some s) o).outcome = .ok r) : r.Declared s := by
  obtain ⟨entries, _, h⟩ := validateWith_eq_ok_iff.1 h
  obtain ⟨given, used, _, _, horder, hfilters, _⟩ := Validation.clean_request_iff.1 h
  exact ⟨Validation.givenFilters_filterable hfilters, Validation.order_sortable horder⟩

end Params

end Sieve
