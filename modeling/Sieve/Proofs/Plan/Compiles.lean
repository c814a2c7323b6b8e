import Sieve.Proofs.Plan.Ready
import Sieve.Proofs.Request.Navigation
import Sieve.Query

/-!
# Valid requests compile

Validation leaves conditions on filterable fields with values that their operators take, an ordering by
sortable fields, a cursor for every token, and numbers that can be computed with where limits and members
of enumerations can be.

* `Params.validateWith_ready`: a valid request is ready to be compiled;
* `Params.validateWith_computable`: its numbers can be computed with;
* `Params.validateWith_compiles`: valid requests compile, and problems that validation finds are
  answered with an empty page;
* `Params.refused_not_compiles`: two valid requests that are refused.
-/

namespace Sieve

open Outcome

/-! ### Numbers -/

namespace Value

/-- The value is null, or counts as an integer. -/
def Counts (v : Value) : Prop :=
  v = .null ∨ ∃ i, v.count? = some i

theorem counts_int (i : Int) : (int i).Counts := .inr ⟨i, rfl⟩

theorem exists_plus {v w : Value} {i j : Int} (hv : v.count? = some i) (hw : w.count? = some j) :
    v.plus w = .ok (int (i + j)) := by
  simp only [plus, compute, hv, hw]

theorem exists_minus {v w : Value} {i j : Int} (hv : v.count? = some i) (hw : w.count? = some j) :
    v.minus w = .ok (int (i - j)) := by
  simp only [minus, compute, hv, hw]

theorem exists_times {v w : Value} {i j : Int} (hv : v.count? = some i) (hw : w.count? = some j) :
    v.times w = .ok (int (i * j)) := by
  simp only [times, compute, hv, hw]

end Value

/-- The limits are integers where they are set. -/
structure Options.LimitsCount (o : Options) : Prop where
  default : o.defaultLimit.Counts
  greatest : o.maxLimit.Counts

/-- Members of enumerations that are given for a page or a number of rows have integers as values. -/
def Params.MembersCount (params : Params) : Prop :=
  ∀ es, params.toEntries = .ok es → ∀ v, ∀ name ∈ ["page", "page_size", "first", "last"],
    Value.lookup? name es = some (.member v) → v.Counts

/-! ### Valid requests are ready -/

namespace Validation

open Checking

variable {schema : Option Schema} {o : Options}

mutual

theorem becomes_conditions {skips : Bool} {d : Draft} {f : Filter} (h : d.Becomes schema skips f) :
    ∀ c ∈ f.conditions, ∃ field op value, c.IsOf schema field op value := by
  match h with
  | .condition hc =>
    intro c hmem
    rw [Filter.conditions, List.mem_singleton] at hmem
    exact hmem ▸ ⟨_, _, _, hc⟩
  | .group _ hfs _ => exact eachBecome_conditions hfs

/-- The conditions that drafts become are in order, at any depth of groups. -/
theorem eachBecome_conditions {skips : Bool} {ds : List Draft} {fs : List Filter}
    (h : Draft.EachBecome schema skips ds fs) :
    ∀ c ∈ Filter.conditionsOf fs, ∃ field op value, c.IsOf schema field op value := by
  match h with
  | .nil => simp [Filter.conditionsOf]
  | .keep hf hfs =>
    intro c hmem
    rcases List.mem_append.1 hmem with hmem | hmem
    · exact becomes_conditions hf c hmem
    · exact eachBecome_conditions hfs c hmem
  | .skip _ hfs => exact eachBecome_conditions hfs

end

theorem givenFilters_conditions {es : List (Value × Value)} {fs : List Filter}
    (h : Clean (givenFilters schema o es) fs) :
    ∀ c ∈ Filter.conditionsOf fs, ∃ field op value, c.IsOf schema field op value := by
  unfold givenFilters at h
  split at h
  · rcases filters_become h with ⟨rfl, _⟩ | ⟨ds, _, hfs⟩
    · simp [Filter.conditionsOf]
    · exact eachBecome_conditions hfs
  · cases clean_pure_iff.1 h
    simp [Filter.conditionsOf]

/-- The value of a condition that is in order has the form that its operator takes. -/
theorem takes_of_isOf {field op value : Value} {c : Condition} (h : c.IsOf schema field op value) :
    c.ignored = true ∨ c.op.Takes c.value := by
  by_cases hignored : c.ignored = true
  · exact .inl hignored
  · obtain ⟨f, _, _, hcoerce⟩ := h.coerced
    have hgiven : c.value.isNull = false := Bool.eq_false_iff.2 hignored
    exact .inr (Operator.takes_of_coerce hcoerce hgiven)

/-! ### Pagination -/

variable {orderBy : Option (List String)} {p q : Pagination} {c : Option Cursor} {name : String}
  {required : Bool} {given m : Value}

/-- What a clean check leaves of a number of rows is nothing, the number, the default or the greatest
limit. -/
theorem clean_size_cases (h : Clean (size o name required given) m) :
    m = .null ∨ m = given ∨ m = o.defaultLimit ∨ m = o.maxLimit := by
  have hset : Options.setting given o.defaultLimit = given ∨
      Options.setting given o.defaultLimit = o.defaultLimit := by
    unfold Options.setting
    split
    · exact .inr rfl
    · exact .inl rfl
  have hkept : m = Options.setting given o.defaultLimit →
      m = .null ∨ m = given ∨ m = o.defaultLimit ∨ m = o.maxLimit := by
    rintro rfl
    exact .inr (hset.imp_right .inl)
  unfold size at h
  dsimp only at h
  split at h
  · obtain ⟨u, _, h⟩ := (clean_bind_iff fun _ => adds_pure _).1 h
    exact .inl (clean_pure_iff.1 h).symm
  · obtain ⟨low, _, h⟩ := clean_lift_bind_iff.1 h
    cases low with
    | true =>
      obtain ⟨r, hr, h⟩ := (clean_bind_iff fun _ =>
        adds_bind (adds_require _ _ _) fun _ => adds_pure _).1 h
      obtain ⟨u, _, h⟩ := (clean_bind_iff fun _ => adds_pure _).1 h
      cases clean_pure_iff.1 h
      exact .inr (.inr (.inl (clean_replace hr)))
    | false =>
      simp only [Bool.false_eq_true, if_false] at h
      split at h
      · exact hkept (clean_pure_iff.1 h).symm
      · obtain ⟨high, _, h⟩ := clean_lift_bind_iff.1 h
        cases high with
        | true => exact .inr (.inr (.inr (clean_replace h)))
        | false => exact hkept (clean_pure_iff.1 h).symm

theorem clean_size_counts (ho : o.LimitsCount) (hgiven : given.Counts)
    (h : Clean (size o name required given) m) : m.Counts := by
  rcases clean_size_cases h with rfl | rfl | rfl | rfl
  · exact .inl rfl
  · exact hgiven
  · exact ho.default
  · exact ho.greatest

/-- A strategy that is found among the parameters of one strategy is that one. -/
theorem eq_of_strategy?_alone {s t : Strategy} {a b : Value} (h : (alone s a b).strategy? = some t) :
    t = s := by
  have huses : (alone s a b).uses t = true := List.find?_some h
  by_contra hne
  rw [Pagination.uses, parameters_alone, if_neg hne] at huses
  cases huses

/-- What compiling needs of pagination by a cursor: an ordering, and a cursor for it exactly with a
token. -/
def Startable (names : List String) (q : Pagination) (c : Option Cursor) : Prop :=
  ∀ s, q.strategy? = some s → s.byCursor = true → names ≠ [] ∧ Anchored names (q.parameters s).2 c

theorem startable_of_not_cursor {s : Strategy} {a b : Value} {names : List String}
    (hs : s.byCursor = false) : Startable names (alone s a b) c := by
  intro t ht hcursor
  rw [eq_of_strategy?_alone ht, hs] at hcursor
  cases hcursor

theorem parameters_startable {s : Strategy} (honly : Only p s)
    (h : Clean (parameters schema o orderBy p (some s)) (q, c)) : Startable (orderBy.getD []) q c := by
  rw [honly.eq_alone] at h
  cases s with
  | first | last =>
    obtain ⟨n, token, rfl, _, hnames, htoken⟩ := clean_cursored rfl h
    intro t ht _
    rw [eq_of_strategy?_alone ht, parameters_alone, if_pos rfl]
    exact ⟨hnames, clean_token hnames htoken⟩
  | page =>
    obtain ⟨page, n, rfl, _⟩ := clean_paged h
    exact startable_of_not_cursor rfl
  | offset =>
    obtain ⟨limit, offset, rfl, _⟩ := clean_skipping h
    exact startable_of_not_cursor rfl

/-- A clean check leaves pagination that a plan can start from. -/
theorem pagination_startable {used : Option Strategy} (hused : conflict p = .ok used)
    (h : Clean (pagination schema o orderBy p used) (q, c)) : Startable (orderBy.getD []) q c := by
  cases pagination_routes hused h with
  | given _ honly _ h => exact parameters_startable honly h
  | @standIn s _ _ _ _ h => exact parameters_startable (only_sized s) h
  | limit _ _ hq hc =>
    subst hq
    exact startable_of_not_cursor rfl

/-- The numbers that plans are computed from count as integers. -/
structure Counting (p : Pagination) : Prop where
  page : p.page.Counts
  pageSize : p.pageSize.Counts
  first : p.first.Counts
  last : p.last.Counts

theorem counting_alone {s : Strategy} {a b : Value} (ha : s ≠ .offset → a.Counts)
    (hb : s = .page → b.Counts) : Counting (alone s a b) := by
  have hnull : Value.null.Counts := .inl rfl
  cases s with
  | first => exact ⟨hnull, hnull, ha nofun, hnull⟩
  | last => exact ⟨hnull, hnull, hnull, ha nofun⟩
  | page => exact ⟨ha nofun, hb rfl, hnull, hnull⟩
  | offset => exact ⟨hnull, hnull, hnull, hnull⟩

theorem counting_sized (ho : o.LimitsCount) (s : Strategy) :
    Counting (sized .empty o.defaultLimit s) := by
  have hnull : Value.null.Counts := .inl rfl
  cases s with
  | first => exact ⟨hnull, hnull, ho.default, hnull⟩
  | last => exact ⟨hnull, hnull, hnull, ho.default⟩
  | page => exact ⟨hnull, ho.default, hnull, hnull⟩
  | offset => exact ⟨hnull, hnull, hnull, hnull⟩

theorem parameters_counting (ho : o.LimitsCount) (hp : Counting p) {s : Strategy} (honly : Only p s)
    (h : Clean (parameters schema o orderBy p (some s)) (q, c)) : Counting q := by
  rw [honly.eq_alone] at h
  cases s with
  | first =>
    obtain ⟨n, token, rfl, hn, _⟩ := clean_cursored rfl h
    exact counting_alone (fun _ => clean_size_counts ho hp.first hn) nofun
  | last =>
    obtain ⟨n, token, rfl, hn, _⟩ := clean_cursored rfl h
    exact counting_alone (fun _ => clean_size_counts ho hp.last hn) nofun
  | page =>
    obtain ⟨page, n, rfl, rfl, hn, hpage⟩ := clean_paged h
    have hcounts : page.Counts := by
      rcases hpage with rfl | ⟨rfl, _⟩
      · exact Value.counts_int 1
      · exact hp.page
    exact counting_alone (fun _ => hcounts) fun _ => clean_size_counts ho hp.pageSize hn
  | offset =>
    obtain ⟨limit, offset, rfl, _⟩ := clean_skipping h
    exact counting_alone nofun nofun

/-- Numbers that count still do after the check. -/
theorem pagination_counting (ho : o.LimitsCount) (hp : Counting p) {used : Option Strategy}
    (hused : conflict p = .ok used) (h : Clean (pagination schema o orderBy p used) (q, c)) :
    Counting q := by
  cases pagination_routes hused h with
  | given _ honly _ h => exact parameters_counting ho hp honly h
  | @standIn s _ _ _ _ h => exact parameters_counting ho (counting_sized ho s) (only_sized s) h
  | limit _ _ hq hc =>
    subst hq
    exact counting_alone nofun nofun

theorem counting_read {es : List (Value × Value)} (h : (Params.entries es).MembersCount) :
    Counting (Scalars.read (admitted o es)).1.pagination := by
  have hcounts : ∀ name ∈ ["page", "page_size", "first", "last"],
      (Scalars.parameter (admitted o es) name Intake.integer).number.Counts :=
    fun name hname => number_admitted (P := Value.Counts) (by fin_cases hname <;> decide) (.inl rfl)
      Value.counts_int fun v => h es rfl v name hname
  exact ⟨hcounts _ (by simp), hcounts _ (by simp), hcounts _ (by simp), hcounts _ (by simp)⟩

end Validation

namespace Request

open Validation

variable {r : Request}

/-- The token and the number of rows of a cursor strategy are its parameters. -/
theorem parameters_of_strategy {s : Strategy} (h : r.strategy? = some s) (hs : s.byCursor = true) :
    r.token = (r.pagination.parameters s).2 ∧ r.size = (r.pagination.parameters s).1 := by
  have hfound : r.pagination.strategy? = some s := h
  rw [token, isBackward, h, size, Pagination.size, hfound]
  cases s <;> first | exact ⟨rfl, rfl⟩ | cases hs

theorem exists_strategy (h : r.byCursor = true) : ∃ s, r.strategy? = some s ∧ s.byCursor = true := by
  unfold byCursor at h
  cases hs : r.strategy? with
  | none =>
    rw [hs] at h
    cases h
  | some s =>
    rw [hs] at h
    exact ⟨s, rfl, h⟩

theorem exists_cursor {names : List String} (h : Startable names r.pagination r.cursor)
    (hcursor : r.byCursor = true) (htoken : r.token ≠ .null) : ∃ e c, r.cursor = some (e :: c) := by
  obtain ⟨s, hs, hcursored⟩ := exists_strategy hcursor
  obtain ⟨hnames, hsome, hperm⟩ := h s hs hcursored
  rw [(parameters_of_strategy hs hcursored).1] at htoken
  obtain ⟨c, hc⟩ := Option.isSome_iff_exists.1 (hsome.2 htoken)
  cases c with
  | nil =>
    -- A cursor without values would be for no ordering.
    exact absurd (List.nil_perm.1 (hperm [] hc)) hnames
  | cons e c => exact ⟨e, c, hc⟩

theorem exists_sizeAndOne (h : Counting r.pagination) (hcursor : r.byCursor = true) :
    ∃ v, r.sizeAndOne = .ok v := by
  obtain ⟨s, hs, hcursored⟩ := exists_strategy hcursor
  have hsize : r.size.Counts := by
    rw [(parameters_of_strategy hs hcursored).2]
    cases s with
    | first => exact h.first
    | last => exact h.last
    | page | offset => cases hcursored
  unfold sizeAndOne
  split
  · exact ⟨_, rfl⟩
  · next hgiven =>
    obtain ⟨i, hi⟩ := hsize.resolve_left (mt Value.isNull_iff.2 hgiven)
    exact ⟨_, Value.exists_plus hi (j := 1) rfl⟩

theorem exists_skip (h : Counting r.pagination) : ∃ v, r.skip = .ok v := by
  unfold skip Pagination.skip
  split
  · exact ⟨_, rfl⟩
  · next hgiven =>
    rw [Bool.or_eq_true, not_or, Value.isNull_iff, Value.isNull_iff] at hgiven
    obtain ⟨i, hi⟩ := h.page.resolve_left hgiven.1
    obtain ⟨j, hj⟩ := h.pageSize.resolve_left hgiven.2
    rw [Value.exists_minus hi (j := 1) rfl, ok_bind, Value.exists_times (i := i - 1) rfl hj]
    exact ⟨_, rfl⟩

/-- Numbers that count can be computed with. -/
theorem not_uncomputable (h : Counting r.pagination) (e : Error) : ¬r.Uncomputable e := by
  rintro (⟨hcursor, he⟩ | ⟨_, he⟩)
  · obtain ⟨v, hv⟩ := exists_sizeAndOne h hcursor
    cases hv.symm.trans he
  · obtain ⟨v, hv⟩ := exists_skip h
    cases hv.symm.trans he

end Request

namespace Params

open Validation

variable {s : Schema} {o : Options} {params : Params} {r : Request}

/-- A valid request is ready to be compiled. -/
theorem validateWith_ready (h : (params.validateWith (some s) o).outcome = .ok r) : r.Ready s := by
  obtain ⟨es, hes, h⟩ := validateWith_eq_ok_iff.1 h
  obtain ⟨given, used, _, hused, horder, hfilters, hpagination⟩ := clean_request_iff.1 h
  refine ⟨fun c hc => ?_, fun n hn => ?_,
    Request.exists_cursor (pagination_startable hused hpagination)⟩
  · obtain ⟨field, op, value, hisOf⟩ := givenFilters_conditions hfilters c hc
    exact ⟨by simpa [Schema.isFilterable] using (hisOf.filterable s rfl).2, takes_of_isOf hisOf⟩
  · simpa [Schema.isSortable] using order_sortable horder n hn

/-- The numbers of a valid request can be computed with where those that can be given for it are. -/
theorem validateWith_computable {schema : Option Schema} (ho : o.LimitsCount) (hp : params.MembersCount)
    (h : (params.validateWith schema o).outcome = .ok r) (e : Error) : ¬r.Uncomputable e := by
  obtain ⟨es, hes, h⟩ := validateWith_eq_ok_iff.1 h
  obtain ⟨given, used, hscalars, hused, _, _, hpagination⟩ := clean_request_iff.1 h
  -- Entries are read alike, whether they were given as such or belong to a request.
  have hmembers : (Params.entries es).MembersCount := by
    rintro es' ⟨⟩
    exact hp es hes
  have hcounting : Counting given.pagination := scalars_read hscalars ▸ counting_read hmembers
  exact Request.not_uncomputable (pagination_counting ho hcounting hused hpagination) e

/-- **Valid requests compile.** A request with a plan, and with one for the other side of its cursor if it
has one, is what valid parameters become, unless something is refused; only limits and members of
enumerations that are no integers make a number that cannot be computed with. Problems that validation
finds are answered with an empty page. -/
theorem validateWith_compiles {d : Declarations} (hd : Schema.declare d = .ok s)
    (hcustom : ∀ f ∈ s.fields, f.kind ≠ .custom)
    (hmembers : ∀ n m f, s.Member n m → s.get? m = some f → f.kind = .plain ∨ f.kind = .join) :
    (∀ r, (params.validateWith (some s) o).outcome = .ok r → r.Compiles s o ∧
      (o.LimitsCount → params.MembersCount → ∀ e, ¬r.Uncomputable e)) ∧
    ∀ source, match (params.validateWith (some s) o).outcome with
      | .ok r => ((Query.mk source (some s) o).validateAndRun params).outcome =
          ((Query.mk source (some s) o).run r).outcome
      | .error e => ∀ messages, e.messages? = some messages →
          ((Query.mk source (some s) o).validateAndRun params).outcome = .ok ⟨[], .invalid messages⟩ := by
  refine ⟨fun r h => ⟨?_, fun ho hp => validateWith_computable ho hp h⟩, fun source => ?_⟩
  · exact Request.Ready.compiles (Schema.checked_of_declare hd) (Schema.sound_of_columns hmembers)
      hcustom (validateWith_ready h)
  · unfold Query.validateAndRun
    cases hvalid : (params.validateWith (some s) o).outcome with
    | ok r => simp only [hvalid, Traced.bind_outcome, ok_bind]
    | error e =>
      intro messages hmessages
      simp only [hvalid, hmessages]

/-- Options that admit orderings and filters, with a map for filter functions. -/
def mapped : Options := { admitting with extra := .map [] }

/-- The same options, where an operator that composites cannot express is an error. -/
def refusing : Options := { mapped with policy := .refuse }

/-- A condition on full names. -/
def fullName (op : String) : List (Value × Value) :=
  [(.text "filters", .list [.map [(.text "field", .text "full"), (.text "op", .text op),
    (.text "value", .text "ada")]])]

/-- A search for full names compiles. -/
theorem validateWith_compiles_fullName :
    Schema.declare .people = .ok .people ∧ (∀ f ∈ Schema.people.fields, f.kind ≠ .custom) ∧
    (∀ n m f, Schema.people.Member n m → Schema.people.get? m = some f → f.kind = .plain) ∧
    ∃ r, ((entries (fullName "like")).validateWith (some .people) mapped).outcome = .ok r ∧
      r.Compiles .people mapped ∧ ∃ p, (r.plan (some .people) mapped).outcome = .ok p := by
  have hdeclare : Schema.declare .people = .ok .people := rfl
  have hvalid : ((entries (fullName "like")).validateWith (some .people) mapped).outcome = .ok
      ⟨[.condition ⟨"full", .like, .text "ada"⟩], none, none, .empty, none⟩ := rfl
  have hcustom : ∀ f ∈ Schema.people.fields, f.kind ≠ .custom := by
    intro f hf
    fin_cases hf <;> nofun
  have hplain : ∀ n m f, Schema.people.Member n m → Schema.people.get? m = some f →
      f.kind = .plain := fun _ _ _ => Schema.kind_member_people
  have hcompiles := (validateWith_compiles hdeclare hcustom
    fun n m f hm hf => .inl (hplain n m f hm hf)).1 _ hvalid
  exact ⟨hdeclare, hcustom, hplain, _, hvalid, hcompiles.1, _, rfl⟩

end Params

/-- The declaration of an alias to order by. -/
def Declarations.scores : Declarations :=
  { (default : Declarations) with
    name := "scores"
    filterable := .list []
    sortable := .list [.text "score"]
    aliases := ["score"] }

/-- The schema of this declaration. -/
def Schema.scores : Schema :=
  ⟨"scores", [.isAlias "score"], [], ["score"], .null, .null, .null, .null, .null⟩

namespace Params

open Validation

/-- **Two requests that are valid and not compiled**: full names are compared where options say that
composites cannot be, and an ordering by an alias goes on after a token. -/
theorem refused_not_compiles :
    Schema.declare .people = .ok .people ∧ Schema.declare .scores = .ok .scores ∧
    (∃ r, ((entries (fullName "==")).validateWith (some .people) refusing).outcome = .ok r ∧
      (r.plan (some .people) refusing).outcome = .error (.compositeOperator "full" .eq)) ∧
    ∃ token r, ((page [(.text "order_by", .list [.text "score"])] 1 (.text token)).validateWith
        (some .scores) mapped).outcome = .ok r ∧
      (r.plan (some .scores) mapped).outcome = .error (.aliasCursor "score") ∧
      (r.lookback (some .scores) mapped).outcome = .error (.aliasCursor "score") := by
  refine ⟨rfl, rfl, ⟨_, rfl, rfl⟩, ?_⟩
  obtain ⟨token, hdecode⟩ := exists_tokenOfOne "score"
  have hfirst : ((page [(.text "order_by", .list [.text "score"])] 1 .null).validateWith
      (some .scores) mapped).outcome = .ok
      ⟨[], some ["score"], none, { Pagination.empty with first := .int 1 }, none⟩ := rfl
  have htyped : typedCursor (some .scores) (.text token) =
      .ok (Cursor.raw [("score", .int 1)]) := by
    rw [typedCursor, Cursor.decodeValue, hdecode]
    rfl
  refine ⟨token, _, (page_valid_iff rfl hfirst (m := 1) (.inr ⟨token, rfl⟩)).2
    ⟨⟨by decide, .inl rfl⟩, some [("score", .int 1)], ⟨rfl, htyped, by decide⟩, rfl⟩, rfl, rfl⟩

end Params

end Sieve
