import Sieve.Proofs.Observation.Compiled
import Sieve.Proofs.Schema.Composites

/-!
# Requests that can be compiled

A request whose conditions, ordering and cursor are in order has a plan, and a plan for the other side
of its cursor if it has one. Three things are still refused when it is compiled: an operator that
composites cannot express, where options say that this is an error, an alias in the ordering of a
request with a token, and options for filter functions that cannot be read as a map.

* `Request.Ready`: what compiling needs of a request;
* `Request.Refused`, `Request.Uncomputable`: what stands in the way of a plan;
* `Request.Compiles`: there are plans unless something is refused;
* `Request.Ready.compiles`: a request that is ready compiles.
-/

namespace Sieve

open Outcome

/-! ### Requests that can be compiled -/

/-- What compiling needs of a request: conditions on filterable fields with values of the form that
their operators take, an ordering by sortable fields, and a cursor for a token. -/
structure Request.Ready (s : Schema) (r : Request) : Prop where
  conditions : ∀ c ∈ Filter.conditionsOf r.filters,
    c.field ∈ s.filterable ∧ (c.ignored = true ∨ c.op.Takes c.value)
  ordering : ∀ n ∈ r.orderNames, n ∈ s.sortable
  cursor : r.byCursor = true → r.token ≠ .null → ∃ e c, r.cursor = some (e :: c)

/-- Why a request that is ready is not compiled. -/
inductive Request.Refused (s : Schema) (o : Options) (r : Request) : Error → Prop
  /-- A condition, at any depth, on a composite that cannot express its operator, where options say that
  this is an error. -/
  | composite {c : Condition} {members : List String} (hc : c ∈ Filter.conditionsOf r.filters)
      (hgiven : c.ignored = false) (hf : s.get? c.field = some (.composite c.field members))
      (hop : c.op.refusesComposite = true) (hpolicy : o.policy = .refuse) :
      Refused s o r (.compositeOperator c.field c.op)
  /-- An ordering by an alias, with a token to start from. -/
  | alias {n : String} (hcursor : r.byCursor = true) (htoken : r.token ≠ .null)
      (hn : n ∈ r.orderNames) (hf : s.get? n = some (.isAlias n)) : Refused s o r (.aliasCursor n)
  /-- The options for filter functions cannot be read as a map. -/
  | extra {e : Error} (h : o.extra.entries = .error e) : Refused s o r e

/-- The number of rows to fetch for a cursor, or else the number of rows to skip, cannot be computed. -/
def Request.Uncomputable (r : Request) (e : Error) : Prop :=
  r.byCursor = true ∧ r.sizeAndOne = .error e ∨ r.byCursor = false ∧ r.skip = .error e

/-- There are plans unless something is refused. -/
structure Request.Compiles (s : Schema) (o : Options) (r : Request) : Prop where
  /-- The request has a plan exactly if nothing is refused and its numbers can be computed with. -/
  plan : (∃ p, (r.plan (some s) o).outcome = .ok p) ↔ ∀ e, ¬r.Refused s o e ∧ ¬r.Uncomputable e
  /-- Without a plan, the error is one of these. -/
  planFails : FailsOnly (fun e => r.Refused s o e ∨ r.Uncomputable e) (r.plan (some s) o).outcome
  /-- With a token, there is a plan for the other side of the cursor exactly if nothing is refused. -/
  lookback : r.byCursor = true → r.token ≠ .null →
    ((∃ p, (r.lookback (some s) o).outcome = .ok (some p)) ↔ ∀ e, ¬r.Refused s o e)
  /-- Without one, the error is a refusal. -/
  lookbackFails : FailsOnly (r.Refused s o) (r.lookback (some s) o).outcome
  /-- Without a token there is no other side. -/
  unpivoted : r.byCursor = false ∨ r.token = .null →
    (r.lookback (some s) o).outcome = .ok none

/-! ### Filters -/

namespace Request

variable {s : Schema} {o : Options} {r : Request} {c : Condition}

theorem setting_ok (schema : Option Schema) {es : List (Value × Value)}
    (h : o.extra.entries = .ok es) : setting schema o = .ok ⟨schema, o.policy, es⟩ := by
  rw [setting, h]
  rfl

/-- The condition is refused, or its operator is admitted. -/
theorem Ready.refused_or_fits (hr : r.Ready s) (hc : c ∈ Filter.conditionsOf r.filters) :
    (c.ignored = false ∧ c.op.refusesComposite = true ∧ o.policy = .refuse ∧
      ∃ members, s.get? c.field = some (.composite c.field members)) ∨ s.Fits o.policy c := by
  rcases (hr.conditions c hc).2 with hignored | hop
  · exact .inr (.inl hignored)
  by_cases hignored : c.ignored = true
  · exact .inr (.inl hignored)
  by_cases hrefused : c.op.refusesComposite = true ∧ o.policy = .refuse ∧
      ∃ members, s.get? c.field = some (.composite c.field members)
  · exact .inl ⟨by simpa using hignored, hrefused⟩
  · refine .inr (.inr ⟨hop, fun f hf hkind hrefuses hpolicy => hrefused ⟨hrefuses, hpolicy, ?_⟩⟩)
    cases f with
    | composite name members =>
      have hname : name = c.field := by simpa [Field.name] using List.find?_some hf
      exact ⟨members, hname ▸ hf⟩
    | plain | isAlias | join | custom => cases hkind

/-- A condition that is refused is not compiled. -/
theorem selectCondition_refused {t : Filter.Setting} (ht : t.schema = some s)
    (hgiven : c.ignored = false) {members : List String}
    (hf : s.get? c.field = some (.composite c.field members))
    (hop : c.op.refusesComposite = true) (hpolicy : t.policy = .refuse) :
    (Filter.selectCondition t c).outcome = .error (.compositeOperator c.field c.op) := by
  rw [Filter.selectCondition_of_get? ht hgiven hf nofun, Field.select, Field.levels]
  simp only [Field.selectWithin, hop, hpolicy, if_true]
  rfl

theorem extra_of_predicate {schema : Option Schema} {p : Predicate}
    (h : (r.predicate schema o).outcome = .ok p) : ∃ es, o.extra.entries = .ok es := by
  rw [predicate, Traced.bind_outcome, Traced.lift_outcome] at h
  obtain ⟨t, ht, _⟩ := bind_eq_ok_iff.1 h
  obtain ⟨es, hes, _⟩ := bind_eq_ok_iff.1 ht
  exact ⟨es, hes⟩

/-- Filters that are compiled have no condition that is refused. -/
theorem not_composite_of_predicate {p : Predicate} (h : (r.predicate (some s) o).outcome = .ok p)
    (hcond : c ∈ Filter.conditionsOf r.filters) (hgiven : c.ignored = false) {members : List String}
    (hf : s.get? c.field = some (.composite c.field members))
    (hop : c.op.refusesComposite = true) : o.policy ≠ .refuse := by
  intro hpolicy
  obtain ⟨es, hes⟩ := extra_of_predicate h
  rw [predicate, Traced.bind_outcome, Traced.lift_outcome, setting_ok _ hes, ok_bind] at h
  obtain ⟨q, hq⟩ := Filter.selectAll_ok_iff.1 ⟨p, h⟩ c hcond
  rw [selectCondition_refused rfl hgiven hf hop hpolicy] at hq
  cases hq

theorem Ready.predicate_fails (hc : s.Checked) (hs : s.Sound)
    (hcustom : ∀ f ∈ s.fields, f.kind ≠ .custom) (hr : r.Ready s) :
    FailsOnly (r.Refused s o) (r.predicate (some s) o).outcome := by
  cases hes : o.extra.entries with
  | error e =>
    rw [predicate, setting, hes]
    exact failsOnly_error (.extra hes)
  | ok es =>
  rw [predicate, Traced.bind_outcome, Traced.lift_outcome, setting_ok _ hes, ok_bind]
  refine Filter.selectAll_failsOnly fun c hcond => ?_
  rcases hr.refused_or_fits (o := o) hcond with ⟨hgiven, hop, hpolicy, members, hf⟩ | hfits
  · rw [selectCondition_refused rfl hgiven hf hop hpolicy]
    exact failsOnly_error (.composite hcond hgiven hf hop hpolicy)
  · have hfilters : s.Filters c := ⟨(hr.conditions c hcond).1, fun f hf =>
      hcustom f (List.mem_of_find?_eq_some hf)⟩
    obtain ⟨p, hp⟩ := hs.exists_selectCondition hc (t := ⟨some s, o.policy, es⟩) rfl hfilters hfits
    rw [hp]
    exact failsOnly_ok p

end Request

/-! ### Cursors -/

namespace Cursor

variable {s : Schema} {order : SortOrder}

/-- The boundary of an ordering by fields that can be sorted by is refused for an alias only. -/
theorem boundary_fails (c : Cursor)
    (h : ∀ t ∈ order, ∃ f, s.get? t.field = some f ∧ f.kind ≠ .custom) :
    FailsOnly (fun e => ∃ t ∈ order, s.get? t.field = some (.isAlias t.field) ∧
      e = .aliasCursor t.field) (c.boundary (some s) order).outcome := by
  induction order with
  | nil => exact failsOnly_ok _
  | cons t rest ih =>
    obtain ⟨f, hf, hcustom⟩ := h t (by simp)
    have hrest := ih fun u hu => h u (by simp [hu])
    unfold boundary
    rw [Traced.bind_outcome]
    refine FailsOnly.bind (fun e he => ?_) fun inner => ?_
    · obtain ⟨u, hu, halias, rfl⟩ := hrest e he
      exact ⟨u, by simp [hu], halias, rfl⟩
    · rw [Traced.bind_outcome, Traced.lift_outcome,
        show resolveField (some s) t.field = .ok f from Schema.resolve_eq_ok_iff.2 hf, ok_bind]
      cases f with
      | isAlias name =>
        have hname : name = t.field := by simpa [Field.name] using List.find?_some hf
        subst hname
        exact failsOnly_error ⟨t, by simp, hf, rfl⟩
      | composite => exact failsOnly_ok _
      | custom => exact absurd rfl hcustom
      | plain | join =>
        dsimp only
        split
        · exact failsOnly_ok _
        · exact failsOnly_ok _

/-- An ordering with a boundary is by no alias. -/
theorem not_alias_of_boundary {c : Cursor} {p : Predicate}
    (h : (c.boundary (some s) order).outcome = .ok p) {t : SortTerm} (ht : t ∈ order) (name : String) :
    s.get? t.field ≠ some (.isAlias name) := by
  induction order generalizing p with
  | nil => cases ht
  | cons u rest ih =>
    unfold boundary at h
    rw [Traced.bind_outcome] at h
    obtain ⟨inner, hinner, h⟩ := bind_eq_ok_iff.1 h
    rcases List.mem_cons.1 ht with rfl | ht
    · intro hf
      rw [Traced.bind_outcome, Traced.lift_outcome,
        show resolveField (some s) t.field = .ok _ from Schema.resolve_eq_ok_iff.2 hf, ok_bind] at h
      cases h
    · exact ih hinner ht

end Cursor

/-! ### Plans -/

namespace Request

variable {s : Schema} {o : Options} {r : Request}

theorem mem_direct {t : SortTerm} (ht : t ∈ r.direct) : t.field ∈ r.orderNames := by
  have hnames : ∀ order : SortOrder, order.names = r.orderNames → t ∈ order → t.field ∈ r.orderNames :=
    fun order heq hmem => heq ▸ List.mem_map_of_mem hmem
  unfold direct at ht
  split at ht
  · exact hnames _ (by simp) ht
  · exact hnames _ (by simp) ht

theorem exists_mem_direct {n : String} (hn : n ∈ r.orderNames) : ∃ t ∈ r.direct, t.field = n := by
  have hnames : r.direct.names = r.orderNames := by
    unfold direct
    split <;> simp
  rw [← hnames] at hn
  exact List.mem_map.1 hn

theorem pivot_ok (hr : r.Ready s) (hcursor : r.byCursor = true) :
    r.token = .null ∧ r.pivot = .ok none ∨ r.token ≠ .null ∧ ∃ c, r.pivot = .ok (some c) := by
  by_cases htoken : r.token = .null
  · exact .inl ⟨htoken, pivot_withoutToken htoken⟩
  · obtain ⟨e, c, hc⟩ := hr.cursor hcursor htoken
    refine .inr ⟨htoken, e :: c, ?_⟩
    rw [pivot, if_neg (by simpa using htoken), hc]

theorem Ready.sortable (hr : r.Ready s) (hc : s.Checked) :
    ∀ t ∈ r.direct, ∃ f, s.get? t.field = some f ∧ f.kind ≠ .custom :=
  fun _ ht => hc.sortable _ (hr.ordering _ (mem_direct ht))

/-- The boundary of a cursor is refused for an alias to order by. -/
theorem Ready.boundary_fails (hr : r.Ready s) (hc : s.Checked) (hcursor : r.byCursor = true)
    (htoken : r.token ≠ .null) (c : Cursor) :
    FailsOnly (r.Refused s o) (c.boundary (some s) r.direct).outcome := by
  intro e he
  obtain ⟨t, ht, halias, rfl⟩ := c.boundary_fails (hr.sortable hc) e he
  exact .alias hcursor htoken (mem_direct ht) halias

/-- Where filters and the boundary of the cursor are compiled, nothing is refused. -/
theorem not_refused {p : Predicate}
    (hp : (r.predicate (some s) o).outcome = .ok p)
    (hboundary : r.byCursor = true → r.token ≠ .null →
      ∃ c b, (Cursor.boundary (some s) c r.direct).outcome = .ok b) : ∀ e, ¬r.Refused s o e := by
  rintro e (⟨hcond, hgiven, hf, hop, hpolicy⟩ | ⟨hcursor, htoken, hn, hf⟩ | hextra)
  · exact not_composite_of_predicate hp hcond hgiven hf hop hpolicy
  · obtain ⟨c, b, hb⟩ := hboundary hcursor htoken
    obtain ⟨t, ht, rfl⟩ := exists_mem_direct hn
    exact Cursor.not_alias_of_boundary hb ht _ hf
  · obtain ⟨es, hes⟩ := extra_of_predicate hp
    cases hes.symm.trans hextra

theorem plan_outcome (schema : Option Schema) :
    (r.plan schema o).outcome =
      (if r.byCursor then r.cursorPlan schema o else r.offsetPlan schema o).outcome := by
  unfold plan
  split
  · rw [Traced.bind_outcome]
    cases (r.cursorPlan schema o).outcome <;> rfl
  · rw [Traced.bind_outcome]
    cases (r.offsetPlan schema o).outcome <;> rfl

/-- The answer of a computation that fails with nothing. -/
theorem ok_of_fails {α : Type} {P : Error → Prop} {x : Except Error α} (h : FailsOnly P x)
    (hno : ∀ e, ¬P e) : ∃ a, x = .ok a := by
  cases x with
  | ok a => exact ⟨a, rfl⟩
  | error e => exact absurd (h e rfl) (hno e)

/-- A request with a plan is not refused, and its numbers can be computed with. -/
theorem not_refused_of_plan (hr : r.Ready s) {p : Plan} (h : (r.plan (some s) o).outcome = .ok p) :
    ∀ e, ¬r.Refused s o e ∧ ¬r.Uncomputable e := by
  rw [plan_outcome] at h
  by_cases hcursor : r.byCursor = true
  · rw [if_pos hcursor] at h
    unfold cursorPlan at h
    rw [Traced.bind_outcome] at h
    obtain ⟨p, hp, h⟩ := bind_eq_ok_iff.1 h
    have hsize : ∀ p plan, (do
        let keys ← Traced.lift (r.direct.keys (some s))
        return ⟨p, keys, ← Traced.lift r.sizeAndOne, .null, r.isBackward⟩ : Traced Plan).outcome =
          .ok plan → ∀ e, ¬r.Uncomputable e := by
      rintro p plan h e (⟨_, he⟩ | ⟨hno, _⟩)
      · obtain ⟨keys, _, h⟩ := bind_eq_ok_iff.1 ((Traced.bind_outcome _ _).symm.trans h)
        rw [he] at h
        cases h
      · rw [hcursor] at hno
        cases hno
    rw [Traced.bind_outcome, Traced.lift_outcome] at h
    rcases pivot_ok hr hcursor with ⟨hnull, hpivot⟩ | ⟨_, c, hpivot⟩
    · rw [hpivot, ok_bind] at h
      exact fun e => ⟨not_refused hp (fun _ htoken => absurd hnull htoken) e, hsize p _ h e⟩
    · rw [hpivot, ok_bind, Traced.bind_outcome] at h
      obtain ⟨b, hb, h⟩ := bind_eq_ok_iff.1 h
      exact fun e => ⟨not_refused hp (fun _ _ => ⟨c, b, hb⟩) e, hsize (p.and b) _ h e⟩
  · rw [if_neg hcursor] at h
    unfold offsetPlan at h
    rw [Traced.bind_outcome] at h
    obtain ⟨p, hp, h⟩ := bind_eq_ok_iff.1 h
    refine fun e => ⟨not_refused hp (fun hyes => absurd hyes hcursor) e, ?_⟩
    rintro (⟨hyes, _⟩ | ⟨_, he⟩)
    · exact hcursor hyes
    · rw [Traced.bind_outcome] at h
      obtain ⟨keys, _, h⟩ := bind_eq_ok_iff.1 h
      rw [he] at h
      cases h

/-- The plan for the other side of the cursor, step by step. -/
theorem lookback_outcome {c : Cursor} (hcursor : r.byCursor = true) (hpivot : r.pivot = .ok (some c)) :
    (r.lookback (some s) o).outcome = (do
      let p ← (r.predicate (some s) o).outcome
      let b ← (c.boundary (some s) r.direct).outcome
      return some ⟨p.and (.not b), [], .int 1, .null, false⟩) := by
  rw [lookback, if_pos hcursor, Traced.bind_outcome, Traced.lift_outcome, hpivot, ok_bind,
    Traced.bind_outcome]
  refine congrArg ((r.predicate (some s) o).outcome >>= ·) (funext fun p => ?_)
  rw [Traced.bind_outcome]
  rfl

variable (hc : s.Checked) (hs : s.Sound) (hcustom : ∀ f ∈ s.fields, f.kind ≠ .custom)
  (hr : r.Ready s)

include hc hs hcustom hr

theorem cursorPlan_fails (hcursor : r.byCursor = true) :
    FailsOnly (fun e => r.Refused s o e ∨ r.Uncomputable e) (r.cursorPlan (some s) o).outcome := by
  obtain ⟨keys, hkeys⟩ := hs.exists_keys hc fun t ht => hr.ordering _ (mem_direct ht)
  have hrest : ∀ p, FailsOnly (fun e => r.Refused s o e ∨ r.Uncomputable e) (do
      let keys ← Traced.lift (r.direct.keys (some s))
      return ⟨p, keys, ← Traced.lift r.sizeAndOne, .null, r.isBackward⟩ : Traced Plan).outcome := by
    intro p
    rw [hkeys, Traced.bind_outcome, Traced.lift_outcome, ok_bind, Traced.bind_outcome,
      Traced.lift_outcome]
    refine FailsOnly.bind (fun e he => ?_) fun v => failsOnly_ok _
    exact .inr (.inl ⟨hcursor, he⟩)
  unfold cursorPlan
  rw [Traced.bind_outcome]
  refine ((hr.predicate_fails hc hs hcustom).mono fun _ => .inl).bind fun p => ?_
  rw [Traced.bind_outcome, Traced.lift_outcome]
  rcases pivot_ok hr hcursor with ⟨_, hpivot⟩ | ⟨htoken, c, hpivot⟩
  · rw [hpivot, ok_bind, Traced.bind_outcome]
    exact FailsOnly.bind (failsOnly_ok p) hrest
  · rw [hpivot, ok_bind, Traced.bind_outcome]
    exact ((hr.boundary_fails hc hcursor htoken c).mono fun _ => .inl).bind fun b => hrest (p.and b)

theorem offsetPlan_fails (hcursor : r.byCursor = false) :
    FailsOnly (fun e => r.Refused s o e ∨ r.Uncomputable e) (r.offsetPlan (some s) o).outcome := by
  have hsort : ∀ t ∈ r.sort, t.field ∈ s.sortable := by
    intro t ht
    refine hr.ordering _ ?_
    rw [← sort_names]
    exact List.mem_map_of_mem ht
  obtain ⟨keys, hkeys⟩ := hs.exists_keys hc hsort
  unfold offsetPlan
  rw [Traced.bind_outcome]
  refine ((hr.predicate_fails hc hs hcustom).mono fun _ => .inl).bind fun p => ?_
  rw [hkeys, Traced.bind_outcome, Traced.lift_outcome, ok_bind, Traced.bind_outcome,
    Traced.lift_outcome]
  refine FailsOnly.bind (fun e he => ?_) fun v => failsOnly_ok _
  exact .inr (.inr ⟨hcursor, he⟩)

theorem plan_fails :
    FailsOnly (fun e => r.Refused s o e ∨ r.Uncomputable e) (r.plan (some s) o).outcome := by
  rw [plan_outcome]
  split
  · next hcursor => exact cursorPlan_fails hc hs hcustom hr hcursor
  · next hcursor => exact offsetPlan_fails hc hs hcustom hr (by simpa using hcursor)

/-- **A request that is ready compiles.** -/
theorem Ready.compiles : r.Compiles s o where
  plan := by
    constructor
    · rintro ⟨p, hp⟩
      exact not_refused_of_plan hr hp
    · intro hno
      exact ok_of_fails (plan_fails hc hs hcustom hr) fun e he => he.elim (hno e).1 (hno e).2
  planFails := plan_fails hc hs hcustom hr
  lookback hcursor htoken := by
    obtain ⟨_, c, hpivot⟩ := (pivot_ok hr hcursor).resolve_left fun hnull => htoken hnull.1
    rw [lookback_outcome hcursor hpivot]
    constructor
    · rintro ⟨p, hp⟩
      obtain ⟨q, hq, hp⟩ := bind_eq_ok_iff.1 hp
      obtain ⟨b, hb, _⟩ := bind_eq_ok_iff.1 hp
      exact not_refused hq fun _ _ => ⟨c, b, hb⟩
    · intro hno
      obtain ⟨p, hp⟩ := ok_of_fails (hr.predicate_fails hc hs hcustom) hno
      obtain ⟨b, hb⟩ := ok_of_fails (hr.boundary_fails (o := o) hc hcursor htoken c) hno
      exact ⟨_, by rw [hp, ok_bind, hb]; rfl⟩
  lookbackFails := by
    by_cases hcursor : r.byCursor = true
    · rcases pivot_ok hr hcursor with ⟨_, hpivot⟩ | ⟨htoken, c, hpivot⟩
      · rw [Request.lookback, if_pos hcursor, hpivot]
        exact failsOnly_ok _
      · rw [lookback_outcome hcursor hpivot]
        exact (hr.predicate_fails hc hs hcustom).bind fun p =>
          (hr.boundary_fails hc hcursor htoken c).bind fun b => failsOnly_ok _
    · rw [lookback_unpivoted (by simpa using hcursor)]
      exact failsOnly_ok _
  unpivoted h := by
    by_cases hcursor : r.byCursor = true
    · have hnull := h.resolve_left (by simp [hcursor])
      rw [Request.lookback, if_pos hcursor, pivot_withoutToken hnull]
      rfl
    · rw [lookback_unpivoted (by simpa using hcursor)]
      rfl

end Request

end Sieve
