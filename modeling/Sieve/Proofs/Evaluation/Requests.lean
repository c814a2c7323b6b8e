import Sieve.Proofs.Evaluation.Conditions

/-!
# Answers to valid requests

Rows that hold values of the types of their fields are always sorted. They are also selected, as long as no
value of a valid request clashes with a row. Filters and tokens can bring in values that do: points in time
with an offset, decimals that are no number, and, for joined fields that are declared to be looked up in,
values that are no text.

* `Request.Clashes`: the reasons why a row is not compared with a request;
* `Plan.Judges`, `Request.plan_judges`, `Request.lookback_judges`: what the plans of a request answer;
* `Request.Evaluates`, `Params.validateWith_evaluates`: valid requests are evaluated unless a row clashes;
* `Params.notANumber_unanswered`: a valid request that no row is compared with.
-/

namespace Sieve

open Outcome Traced

/-- Why a row is not compared with a request: a condition clashes with it, or a value of the cursor. -/
inductive Request.Clashes (s : Schema) (aliases : Aliases) (row : Value) (r : Request) : Prop
  | condition {c : Condition} (hc : c ∈ Filter.conditionsOf r.filters) (h : c.Clashes s aliases row)
  | cursor {c : Cursor} (hcursor : r.byCursor = true) (hc : r.pivot = .ok (some c))
      (h : c.Clashes s aliases row r.orderNames)

/-- What evaluating needs of a request: its conditions are in order, the fields of its ordering are
declared, and the values of its cursor are of the types of their fields. -/
structure Request.Typed (s : Schema) (r : Request) : Prop where
  conditions : ∀ c ∈ Filter.conditionsOf r.filters, ∃ field op value, c.IsOf (some s) field op value
  ordering : ∀ n ∈ r.orderNames, s.isSortable n = true ∧ ∃ f, resolveField (some s) n = .ok f
  cursor : ∀ c, r.byCursor = true → r.pivot = .ok (some c) → c.Stored s

/-! ### Rows -/

section

variable {s : Schema} {aliases : Aliases} {rows : List Row} {row : Value} {p : Predicate}
  {keys : List SortKey}

theorem Predicate.selects_ok_iff (hp : p.Proper) :
    (∃ answer, p.selects aliases row = .ok answer) ↔ p.Answered aliases row := by
  constructor
  · rintro ⟨answer, h⟩
    obtain ⟨v, hv, _⟩ := bind_eq_ok_iff.1 h
    cases p with
    | oddConst w => exact absurd rfl (hp w)
    | _ =>
      obtain ⟨t, ht, _⟩ := bind_eq_ok_iff.1 hv
      exact ⟨t, ht⟩
  · rintro ⟨t, ht⟩
    exact ⟨_, Predicate.selects_ok hp ht⟩

/-- Rows are selected if and only if the predicate is answered on each of them. -/
theorem selectRows_ok_iff {P : Row → Prop}
    (h : ∀ row ∈ rows, p.Proper ∧ (p.Answered aliases row.data ↔ P row)) :
    (∃ selected, selectRows aliases p rows = .ok selected) ↔ ∀ row ∈ rows, P row := by
  constructor
  · rintro ⟨selected, hselected⟩ row hrow
    obtain ⟨hproper, hiff⟩ := h row hrow
    exact hiff.1 ((Predicate.selects_ok_iff hproper).1 (exists_answer_of_filterM hselected row hrow))
  · intro hrows
    cases rows with
    | nil => exact ⟨[], rfl⟩
    | cons first rest =>
      exact ⟨_, selectRows_ok (h first (by simp)).1 fun row hrow => (h row hrow).2.2 (hrows row hrow)⟩

/-- **Rows that hold values of the types of their fields are sorted.** -/
theorem exists_sortRows (hrows : ∀ row ∈ rows, s.Types aliases row.data)
    (hkeys : ∀ k ∈ keys, s.Refers k.ref) : ∃ sorted, sortRows aliases keys rows = .ok sorted := by
  have horders : ∀ k ∈ keys, k.Orders aliases rows := by
    intro k hk
    obtain ⟨n, f, _, hf, href⟩ := hkeys k hk
    refine ⟨f.type.Holds, f.type.totallyOrdered, fun row hrow => ?_⟩
    obtain ⟨r, x, hr, hx, hheld, _⟩ := (hrows row hrow).found (Schema.resolve_eq_ok_iff.2 hf)
    cases href.symm.trans hr
    exact ⟨x, hx, hheld⟩
  obtain ⟨cmp, _, hcmp⟩ := exists_compareRows horders
  unfold sortRows
  split
  · exact ⟨_, rfl⟩
  · refine ⟨rows.mergeSort fun a b => (cmp a b).isLE, Insertion.sortBy_eq fun a ha b hb => ?_⟩
    rw [hcmp a ha b hb]
    rfl

end

/-! ### Plans -/

/-- The predicate of the plan is answered on the row in the given case, and the keys are found in fields. -/
structure Plan.Judges (s : Schema) (aliases : Aliases) (row : Value) (P : Prop) (plan : Plan) : Prop where
  proper : plan.predicate.Proper
  answered : plan.predicate.Answered aliases row ↔ P
  keys : ∀ k ∈ plan.ordering, s.Refers k.ref

namespace Request

variable {s : Schema} {aliases : Aliases} {row : Value} {r : Request} {o : Options}

theorem not_clashes_iff : ¬r.Clashes s aliases row ↔
    (∀ c ∈ Filter.conditionsOf r.filters, ¬c.Clashes s aliases row) ∧
      ∀ c, r.byCursor = true → r.pivot = .ok (some c) → ¬c.Clashes s aliases row r.orderNames := by
  constructor
  · intro h
    exact ⟨fun c hc hclash => h (.condition hc hclash), fun c hcursor hc hclash =>
      h (.cursor hcursor hc hclash)⟩
  · rintro ⟨hconditions, hcursors⟩ (⟨hc, h⟩ | ⟨hcursor, hc, h⟩)
    · exact hconditions _ hc h
    · exact hcursors _ hcursor hc h

theorem predicate_answered (hs : s.HasColumns) (hrow : s.Types aliases row) (hr : r.Typed s) :
    Yields (fun p => p.Proper ∧ (p.Answered aliases row ↔
      ∀ c ∈ Filter.conditionsOf r.filters, ¬c.Clashes s aliases row)) (r.predicate (some s) o) := by
  refine yields_bind (P := fun t => t.schema = some s) (yields_lift fun t ht => ?_) fun t ht p hp =>
    Filter.selectAll_answered_iff ht hs hrow hr.conditions hp
  obtain ⟨extra, _, ht⟩ := bind_eq_ok_iff.1 ht
  cases ht
  rfl

theorem direct_names (r : Request) : r.direct.names = r.orderNames := by
  unfold direct
  split <;> simp

theorem boundary_answered {c : Cursor} (hs : s.HasColumns) (hrow : s.Types aliases row)
    (hr : r.Typed s) (hcursor : r.byCursor = true) (hc : r.pivot = .ok (some c)) :
    Yields (fun b => b.Proper ∧ (b.Answered aliases row ↔ ¬c.Clashes s aliases row r.orderNames))
      (c.boundary (some s) r.direct) := by
  intro b hb
  rw [← direct_names]
  exact Cursor.boundary_answered_iff hs hrow (hr.cursor c hcursor hc)
    (fun t ht => (hr.ordering _ (mem_direct ht)).2) hb

/-- A predicate with the boundary of a cursor is answered if both are. -/
theorem judges_and {p b : Predicate} {c : Cursor} (hcursor : r.byCursor = true)
    (hc : r.pivot = .ok (some c))
    (hp : p.Proper ∧ (p.Answered aliases row ↔
      ∀ c ∈ Filter.conditionsOf r.filters, ¬c.Clashes s aliases row))
    (hb : b.Proper ∧ (b.Answered aliases row ↔ ¬c.Clashes s aliases row r.orderNames)) :
    (p.and b).Answered aliases row ↔ ¬r.Clashes s aliases row := by
  rw [Predicate.answered_and_iff hp.1 hb.1, hp.2, hb.2, not_clashes_iff]
  refine and_congr_right fun _ => ⟨fun h d _ hd => ?_, fun h => h c hcursor hc⟩
  cases hc.symm.trans hd
  exact h

theorem keys_refer (hr : r.Typed s) {order : SortOrder} (horder : order.names = r.orderNames)
    {keys : List SortKey} (h : order.keys (some s) = .ok keys) : ∀ k ∈ keys, s.Refers k.ref := by
  refine SortOrder.keys_reads (fun t ht => .sortable (hr.ordering _ ?_).1) h
  rw [← horder]
  exact List.mem_map_of_mem ht

theorem cursorPlan_judges (hs : s.HasColumns) (hrow : s.Types aliases row) (hr : r.Typed s)
    (hcursor : r.byCursor = true) :
    Yields (Plan.Judges s aliases row (¬r.Clashes s aliases row)) (r.cursorPlan (some s) o) := by
  have hkeys : ∀ p : Predicate, p.Proper ∧ (p.Answered aliases row ↔ ¬r.Clashes s aliases row) →
      Yields (Plan.Judges s aliases row (¬r.Clashes s aliases row)) (do
        let keys ← Traced.lift (r.direct.keys (some s))
        return ⟨p, keys, ← Traced.lift r.sizeAndOne, .null, r.isBackward⟩) := by
    rintro p ⟨hproper, hiff⟩
    refine yields_bind (P := fun keys => ∀ k ∈ keys, s.Refers k.ref) (yields_lift fun keys hkeys =>
      keys_refer hr (direct_names r) hkeys) fun keys hkeys => ?_
    exact yields_after fun _ => yields_pure ⟨hproper, hiff, hkeys⟩
  unfold cursorPlan
  refine yields_bind (predicate_answered hs hrow hr) fun p hp => ?_
  refine yields_bind (P := fun pivot => r.pivot = .ok pivot) (yields_lift fun _ h => h) fun pivot hc => ?_
  cases pivot with
  | none =>
    refine yields_bind (yields_pure ⟨hp.1, hp.2.trans ?_⟩) hkeys
    rw [not_clashes_iff]
    exact (and_iff_left fun d _ hd => by cases hc.symm.trans hd).symm
  | some c =>
    exact yields_bind (boundary_answered hs hrow hr hcursor hc) fun b hb =>
      yields_bind (yields_pure ⟨nofun, judges_and hcursor hc hp hb⟩) hkeys

theorem offsetPlan_judges (hs : s.HasColumns) (hrow : s.Types aliases row) (hr : r.Typed s)
    (hcursor : ¬r.byCursor = true) :
    Yields (Plan.Judges s aliases row (¬r.Clashes s aliases row)) (r.offsetPlan (some s) o) := by
  unfold offsetPlan
  refine yields_bind (predicate_answered hs hrow hr) fun p hp => ?_
  refine yields_bind (P := fun keys => ∀ k ∈ keys, s.Refers k.ref) (yields_lift fun keys hkeys =>
    keys_refer hr (sort_names r) hkeys) fun keys hkeys => ?_
  refine yields_after fun _ => yields_pure ⟨hp.1, hp.2.trans ?_, hkeys⟩
  rw [not_clashes_iff]
  exact (and_iff_left fun _ hyes => absurd hyes hcursor).symm

/-- **The plan of a request is answered on a row unless the row clashes with the request.** -/
theorem plan_judges (hs : s.HasColumns) (hrow : s.Types aliases row) (hr : r.Typed s) :
    Yields (Plan.Judges s aliases row (¬r.Clashes s aliases row)) (r.plan (some s) o) := by
  intro plan hplan
  rw [plan_outcome] at hplan
  split at hplan
  · next hcursor => exact cursorPlan_judges hs hrow hr hcursor plan hplan
  · next hcursor => exact offsetPlan_judges hs hrow hr hcursor plan hplan

/-- The same for the plan for the other side of the cursor. -/
theorem lookback_judges (hs : s.HasColumns) (hrow : s.Types aliases row) (hr : r.Typed s) :
    Yields (∀ plan ∈ ·, Plan.Judges s aliases row (¬r.Clashes s aliases row) plan)
      (r.lookback (some s) o) := by
  unfold lookback
  split
  · next hcursor =>
    refine yields_bind (P := fun pivot => r.pivot = .ok pivot) (yields_lift fun _ h => h)
      fun pivot hc => ?_
    cases pivot with
    | none => exact yields_pure (by simp)
    | some c =>
      refine yields_bind (predicate_answered hs hrow hr) fun p hp => ?_
      refine yields_bind (boundary_answered hs hrow hr hcursor hc) fun b hb => yields_pure ?_
      rintro plan ⟨⟩
      have hnot : b.not.Proper ∧ (b.not.Answered aliases row ↔ ¬c.Clashes s aliases row r.orderNames) :=
        ⟨nofun, Predicate.answered_not_iff.trans hb.2⟩
      exact ⟨nofun, judges_and hcursor hc hp hnot, nofun⟩
  · exact yields_pure (by simp)

end Request

/-! ### Valid requests -/

namespace Cursor

variable {s : Schema} {c : Cursor} {n : String} {v : Value}

theorem mem_of_bound? (h : c.bound? n = some v) : (n, v) ∈ c := by
  have hlookup : c.lookup n = some v := by
    unfold bound? at h
    split at h
    · cases h
    · exact h
  obtain ⟨before, after, rfl, _⟩ := List.lookup_eq_some_iff.1 hlookup
  simp

/-- The values of a cursor that was read from a token are of the types of their fields. -/
theorem stored_of_typedCursor {token : Value}
    (h : Validation.typedCursor (some s) token = .ok c.raw) : c.Stored s := by
  intro n f v hf hcolumn hv
  obtain ⟨d, _, hd⟩ := bind_eq_ok_iff.1 h
  have hmem : ((.whole n, v) : RawText × Value) ∈ c.raw :=
    List.mem_map.2 ⟨_, mem_of_bound? hv, rfl⟩
  obtain ⟨⟨m, w⟩, _, hentry⟩ := exists_of_mem_mapM hd hmem
  obtain ⟨hname, hu⟩ := Validation.typedEntry_eq_ok_iff.1 hentry
  cases hname
  have hcoerce : f.type.coerce w = .ok v := by
    dsimp only at hu
    unfold Validation.typedValue at hu
    rw [Option.bind_some, Schema.resolve_eq_ok_iff.1 hf] at hu
    cases f with
    | plain | join => exact hu
    | isAlias | composite | custom => exact absurd hcolumn (by simp [Field.IsColumn, Field.kind])
  exact (StorageType.stores_of_coerce hcoerce).resolve_left (bound?_ne_null (t := ⟨n, .asc⟩) hv)

end Cursor

namespace Request

variable {s : Schema} {aliases : Aliases} {rows : List Row} {o : Options} {r : Request}

/-- The plan is that of the request, or that for the other side of its cursor. -/
def HasPlan (s : Schema) (o : Options) (r : Request) (plan : Plan) : Prop :=
  (r.plan (some s) o).outcome = .ok plan ∨ (r.lookback (some s) o).outcome = .ok (some plan)

theorem HasPlan.judges {row : Value} {plan : Plan} (hplan : r.HasPlan s o plan) (hs : s.HasColumns)
    (hrow : s.Types aliases row) (hr : r.Typed s) :
    plan.Judges s aliases row (¬r.Clashes s aliases row) :=
  hplan.elim (plan_judges hs hrow hr plan) fun h => lookback_judges hs hrow hr _ h plan rfl

/-- How a request is evaluated on some rows. -/
structure Evaluates (s : Schema) (o : Options) (aliases : Aliases) (rows : List Row) (r : Request) :
    Prop where
  /-- The request is compiled, unless its options or its numbers are out of order. -/
  compiled : (∃ es, o.extra.entries = .ok es) →
    (∃ p, (r.predicate (some s) o).outcome = .ok p) ∧
    (∃ look, (r.lookback (some s) o).outcome = .ok look) ∧
    ((∀ e, ¬r.Uncomputable e) → ∃ plan, (r.plan (some s) o).outcome = .ok plan)
  /-- Filters are evaluated exactly if no condition clashes with a row. -/
  filters : ∀ p, (r.predicate (some s) o).outcome = .ok p →
    ((∃ selected, selectRows aliases p rows = .ok selected) ↔
      ∀ row ∈ rows, ∀ c ∈ Filter.conditionsOf r.filters, ¬c.Clashes s aliases row.data)
  /-- Plans are evaluated exactly if no row clashes with the request. -/
  selects : ∀ plan, r.HasPlan s o plan →
    ((∃ selected, selectRows aliases plan.predicate rows = .ok selected) ↔
      ∀ row ∈ rows, ¬r.Clashes s aliases row.data)
  /-- Sorting never fails. -/
  sorts : ∀ plan, r.HasPlan s o plan → ∃ sorted, sortRows aliases plan.ordering rows = .ok sorted

/-- Nothing of a request that is ready is refused where all fields are columns. -/
theorem Ready.not_refused (hs : s.HasColumns) {es : List (Value × Value)}
    (hextra : o.extra.entries = .ok es) (e : Error) : ¬r.Refused s o e := by
  have hcolumn : ∀ {n f}, s.get? n = some f → f.IsColumn :=
    fun hf => hs.isColumn (Schema.resolve_eq_ok_iff.2 hf)
  rintro (⟨_, _, hf, _⟩ | ⟨_, _, _, hf⟩ | h)
  · exact absurd (hcolumn hf) (by simp [Field.IsColumn, Field.kind])
  · exact absurd (hcolumn hf) (by simp [Field.IsColumn, Field.kind])
  · cases hextra.symm.trans h

theorem Ready.exists_plans (hc : s.Checked) (hs : s.HasColumns) (hr : r.Ready s)
    (hextra : ∃ es, o.extra.entries = .ok es) :
    (∃ p, (r.predicate (some s) o).outcome = .ok p) ∧
    (∃ look, (r.lookback (some s) o).outcome = .ok look) ∧
    ((∀ e, ¬r.Uncomputable e) → ∃ plan, (r.plan (some s) o).outcome = .ok plan) := by
  obtain ⟨es, hes⟩ := hextra
  have hno := Ready.not_refused (r := r) hs hes
  have hcolumn : ∀ n m f, s.Member n m → s.get? m = some f → f.kind = .plain ∨ f.kind = .join :=
    fun _ _ _ _ hf => hs.isColumn (Schema.resolve_eq_ok_iff.2 hf)
  have hcustom : ∀ f ∈ s.fields, f.kind ≠ .custom := by
    intro f hf hkind
    rcases hs f hf with h | h <;> cases hkind.symm.trans h
  have hsound := Schema.sound_of_columns hcolumn
  have hcompiles := Ready.compiles (o := o) hc hsound hcustom hr
  refine ⟨ok_of_fails (hr.predicate_fails hc hsound hcustom) hno,
    ok_of_fails hcompiles.lookbackFails hno, fun hnumbers => ?_⟩
  exact hcompiles.plan.2 fun e => ⟨hno e, hnumbers e⟩

/-- A request with typed parts is evaluated on rows that hold values of the types of their fields. -/
theorem Typed.evaluates (hc : s.Checked) (hs : s.HasColumns) (hready : r.Ready s) (hr : r.Typed s)
    (hrows : ∀ row ∈ rows, s.Types aliases row.data) : r.Evaluates s o aliases rows where
  compiled := hready.exists_plans hc hs
  filters p hp := selectRows_ok_iff fun row hrow => predicate_answered hs (hrows row hrow) hr p hp
  selects plan hplan := by
    refine selectRows_ok_iff fun row hrow => ?_
    have hjudges := hplan.judges hs (hrows row hrow) hr
    exact ⟨hjudges.proper, hjudges.answered⟩
  sorts plan hplan := by
    cases rows with
    | nil =>
      unfold sortRows
      split <;> exact ⟨[], rfl⟩
    | cons first rest =>
      exact exists_sortRows hrows (hplan.judges hs (hrows first (by simp)) hr).keys

end Request

namespace Params

open Validation

variable {s : Schema} {o : Options} {params : Params} {r : Request}

/-- The parts of a valid request are of the types of the schema. -/
theorem validateWith_typed (hc : s.Checked) (h : (params.validateWith (some s) o).outcome = .ok r) :
    r.Typed s := by
  have hready := validateWith_ready h
  obtain ⟨es, _, h⟩ := validateWith_eq_ok_iff.1 h
  obtain ⟨given, used, _, hused, horder, hfilters, hpagination⟩ := clean_request_iff.1 h
  refine ⟨givenFilters_conditions hfilters, fun n hn => ⟨order_sortable horder n hn, ?_⟩, ?_⟩
  · obtain ⟨f, hf, _⟩ := hc.sortable n (hready.ordering n hn)
    exact ⟨f, Schema.resolve_eq_ok_iff.2 hf⟩
  · intro c hcursor hpivot
    have htoken : r.token ≠ .null := by
      intro hnull
      cases (Request.pivot_withoutToken hnull).symm.trans hpivot
    obtain ⟨e, d, hd⟩ := hready.cursor hcursor htoken
    have hc : c = e :: d := by
      rw [Request.pivot, if_neg (by simpa using htoken), hd] at hpivot
      cases hpivot
      rfl
    obtain ⟨_, _, token, _, _, _, htyped⟩ := (pagination_settled hused hpagination).1.cursor _ hd
    rw [hc]
    exact Cursor.stored_of_typedCursor htyped

/-- **Valid requests are evaluated on typed rows, unless a row clashes.** -/
theorem validateWith_evaluates {d : Declarations} (hd : Schema.declare d = .ok s) (hs : s.HasColumns)
    (h : (params.validateWith (some s) o).outcome = .ok r) {aliases : Aliases} {rows : List Row}
    (hrows : ∀ row ∈ rows, s.Types aliases row.data) : r.Evaluates s o aliases rows := by
  have hc := Schema.checked_of_declare hd
  exact (validateWith_typed hc h).evaluates hc hs (validateWith_ready h) hrows

end Params

/-- The declaration of a price. -/
def Declarations.prices : Declarations :=
  { (default : Declarations) with
    name := "prices"
    fields := [("price", some (.text "decimal"))]
    filterable := .list [.text "price"]
    sortable := .list [.text "price"] }

/-- The schema of this declaration. -/
def Schema.prices : Schema :=
  ⟨"prices", [.plain "price" .decimal], ["price"], ["price"], .null, .null, .null, .null, .null⟩

theorem Schema.hasColumns_prices : prices.HasColumns := by
  intro f hf
  rw [List.mem_singleton.1 hf]
  exact .inl rfl

/-- A row with a price. -/
def pricedRow (v : Value) : Value :=
  .map [(.text "price", v)]

theorem Schema.types_pricedRow {v : Value} (hv : v.NullOr StorageType.decimal.Holds) :
    prices.Types [] (pricedRow v) := by
  intro f hf
  rw [List.mem_singleton.1 hf]
  exact ⟨_, rfl, v, rfl, hv⟩

namespace Params

/-- A condition that the price is above a bound, and an ordering by price. -/
def above (bound : String) : List (Value × Value) :=
  [(.text "filters", .list [.map [(.text "field", .text "price"), (.text "op", .text ">"),
    (.text "value", .text bound)]]), (.text "order_by", .list [.text "price"])]

/-- A row with the price two, and one without a price. -/
def priced : List Row :=
  Row.collection [pricedRow (.decimal (.finite false 2 0)), pricedRow .null]

theorem types_priced : ∀ row ∈ priced, Schema.prices.Types [] row.data := by
  intro row hrow
  fin_cases hrow
  · exact Schema.types_pricedRow (.inr (.decimal rfl))
  · exact Schema.types_pricedRow (.inl rfl)

/-- Prices above a number are compared, and the row with such a price is selected. -/
theorem validateWith_evaluates_priced :
    Schema.declare .prices = .ok .prices ∧ Schema.prices.HasColumns ∧
    (∀ row ∈ priced, Schema.prices.Types [] row.data) ∧
    ∃ r, ((entries (above "1.5")).validateWith (some .prices) mapped).outcome = .ok r ∧
      r.Evaluates .prices mapped [] priced ∧
      (∀ row ∈ priced, ¬r.Clashes .prices [] row.data) ∧
      ∃ plan, (r.plan (some .prices) mapped).outcome = .ok plan ∧
        ∃ selected, selectRows [] plan.predicate priced = .ok selected := by
  have hdeclare : Schema.declare .prices = .ok .prices := rfl
  have hvalid : ((entries (above "1.5")).validateWith (some .prices) mapped).outcome = .ok
      ⟨[.condition ⟨"price", .gt, .decimal (.finite false 15 (-1))⟩], some ["price"], none, .empty,
        none⟩ := rfl
  have hevaluates := validateWith_evaluates hdeclare Schema.hasColumns_prices hvalid types_priced
  have hfree : ∀ row ∈ priced, ¬Request.Clashes .prices [] row.data
      ⟨[.condition ⟨"price", .gt, .decimal (.finite false 15 (-1))⟩], some ["price"], none, .empty,
        none⟩ := by
    rintro row _ (⟨hc, _, _, _, hclash⟩ | ⟨hcursor, _, _⟩)
    · cases List.mem_singleton.1 hc
      cases Value.unordered_decimal_iff.1 hclash
    · cases hcursor
  exact ⟨hdeclare, Schema.hasColumns_prices, types_priced, _, hvalid, hevaluates, hfree, _, rfl,
    (hevaluates.selects _ (.inl rfl)).2 hfree⟩

/-- **A price above what is no number**: the request is valid, its plan is compiled, and no row with a price
can be compared with it. -/
theorem notANumber_unanswered :
    (∀ row ∈ priced, Schema.prices.Types [] row.data) ∧
    ∃ r, ((entries (above "NaN")).validateWith (some .prices) mapped).outcome = .ok r ∧
      ∃ plan, (r.plan (some .prices) mapped).outcome = .ok plan ∧
        selectRows [] plan.predicate priced = .error .invalidOperation ∧
        (Query.run (.inMemory [] priced (some .prices) mapped) r).outcome = .error .invalidOperation := by
  exact ⟨types_priced, _, rfl, _, rfl, rfl, rfl⟩

end Params

end Sieve
