import Sieve.Proofs.Plan.Compiles
import Sieve.Proofs.Validation.Reread

/-!
# Valid requests checked again

A valid request that is given as parameters becomes itself, unless one of two things is the case: its number
of rows is out of the limits, which happens to a default that was not checked, or it has a limit without an
offset, beside which zero is put in.

* `Validation.clean_size_int_iff`: what a check leaves of an integer as a number of rows;
* `Options.Keeps`, `Pagination.Settles`: numbers of rows and pagination that stay as they are;
* `Validation.pagination_rechecked`: pagination that was checked, checked again;
* `Params.validateWith_settled`: when a valid request becomes itself again;
* `Params.validateWith_unsettled`: one that does not.
-/

namespace Sieve

open Outcome

/-- The limits are integers, where they are set. -/
structure Options.LimitsWhole (o : Options) : Prop where
  default : o.defaultLimit.Whole
  greatest : o.maxLimit.Whole

namespace Validation

open Checking

variable {schema : Option Schema} {o : Options}

/-! ### Numbers of rows -/

variable {name : String} {required : Bool}

theorem clean_replace_iff {message : Except Error String} {n r m : Value} :
    Clean (replace o name n r message) m ↔ o.replaces = true ∧ m = r := by
  constructor
  · exact fun h => ⟨replaces_of_clean h, clean_replace h⟩
  · rintro ⟨hreplaces, rfl⟩
    rw [replace, if_pos hreplaces]
    exact clean_report_bind_iff.2 rfl

theorem clean_require_iff {n : Value} {u : Unit} :
    Clean (require name required n) u ↔ (required = true → n ≠ .null) := by
  unfold require
  cases required <;> by_cases hn : n = .null <;> simp [hn, Value.isNull]

/-- **What a check leaves of an integer as a number of rows**: where it is not above zero the default, and
where it is above the greatest limit that limit, as far as options say so. -/
theorem clean_size_int_iff (hmax : o.maxLimit.Whole) {j : Int} {m : Value} :
    Clean (size o name required (.int j)) m ↔
      (j ≤ 0 ∧ o.replaces = true ∧ m = o.defaultLimit ∧ (required = true → m ≠ .null)) ∨
      (0 < j ∧ (∃ k, o.maxLimit = .int k ∧ k < j) ∧ o.replaces = true ∧ m = o.maxLimit) ∨
      (0 < j ∧ (∀ k, o.maxLimit = .int k → j ≤ k) ∧ m = .int j) := by
  rw [size_eq, clean_lift_bind_iff, precedes_le_int]
  simp only [Except.ok.injEq, exists_eq_left']
  by_cases hj : j ≤ 0
  · rw [decide_eq_true hj, if_pos rfl, clean_bind_iff fun _ =>
      adds_bind (adds_require _ _ _) fun _ => adds_pure _]
    simp only [clean_bind_iff fun _ => adds_pure _, clean_replace_iff, clean_require_iff,
      clean_pure_iff, not_lt.2 hj, hj, true_and, false_and, or_false]
    constructor
    · rintro ⟨r, ⟨hreplaces, rfl⟩, _, hset, rfl⟩
      exact ⟨hreplaces, rfl, hset⟩
    · rintro ⟨hreplaces, rfl, hset⟩
      exact ⟨_, ⟨hreplaces, rfl⟩, (), hset, rfl⟩
  · rw [decide_eq_false hj]
    simp only [Bool.false_eq_true, if_false, hj, not_le.1 hj, false_and, false_or, true_and]
    rcases hmax with hmax | ⟨k, hmax⟩
    · simpa [hmax, Value.isNull] using eq_comm
    · rw [hmax]
      simp only [Value.isNull, Bool.false_eq_true, if_false, Value.precedes_int_eq,
        clean_lift_bind_iff, Except.ok.injEq, exists_eq_left', Value.int.injEq]
      by_cases hk : k < j
      · simp [hk, clean_replace_iff]
      · simpa [hk, not_lt.1 hk] using eq_comm

/-- The default is checked in place of a missing number. -/
theorem size_default (o : Options) (name : String) (required : Bool) :
    size o name required o.defaultLimit = size o name required .null := by
  have hset : Options.setting o.defaultLimit o.defaultLimit = o.defaultLimit := by
    unfold Options.setting
    split <;> rfl
  simp only [size, hset, Options.setting_null]
  rfl

/-- Where limits are integers, so is a number of rows that was checked. It is missing only where it may be
and has no default. -/
theorem clean_size_whole (ho : o.LimitsWhole) {given m : Value} (hgiven : given.Whole)
    (h : Clean (size o name required given) m) :
    m.Whole ∧ (m = .null → o.defaultLimit = .null ∧ required = false) := by
  have hint (j : Int) (h : Clean (size o name required (.int j)) m) :
      m.Whole ∧ (m = .null → o.defaultLimit = .null ∧ required = false) := by
    rcases (clean_size_int_iff ho.greatest).1 h with
      ⟨_, _, rfl, hset⟩ | ⟨_, ⟨k, hk, _⟩, _, rfl⟩ | ⟨_, _, rfl⟩
    · exact ⟨ho.default, fun hnull => ⟨hnull, by simpa using fun hrequired => hset hrequired hnull⟩⟩
    · rw [hk]
      exact ⟨Value.whole_int k, nofun⟩
    · exact ⟨Value.whole_int j, nofun⟩
  rcases hgiven with rfl | ⟨j, rfl⟩
  · rcases ho.default with hdefault | ⟨j, hdefault⟩
    · have hmissing : size o name required .null =
          require name required .null >>= fun _ => pure .null := by
        simp [size, hdefault, Options.setting, Value.isNull]
      rw [hmissing] at h
      obtain ⟨_, hrequire, h⟩ := (clean_bind_iff fun _ => adds_pure _).1 h
      cases clean_pure_iff.1 h
      exact ⟨Value.whole_null, fun _ => ⟨hdefault, by simpa using clean_require_iff.1 hrequire⟩⟩
    · rw [← size_default, hdefault] at h
      exact hint j h
  · exact hint j h

end Validation

/-- The number of rows stays as it is when it is checked. It is within the limits, or it is the default and
not above zero, where the default stands in for itself. -/
def Options.Keeps (o : Options) (n : Value) : Prop :=
  n = .null ∨ ∃ j, n = .int j ∧
    (0 < j ∧ (∀ k, o.maxLimit = .int k → j ≤ k) ∨
      j ≤ 0 ∧ o.replaces = true ∧ o.defaultLimit = .int j)

/-- The pagination stays as it is when it is checked: its number of rows does, and there is no limit
without an offset. -/
structure Pagination.Settles (o : Options) (p : Pagination) : Prop where
  size : o.Keeps p.size
  offset : p.limit ≠ .null → p.offset ≠ .null

namespace Validation

open Checking

variable {schema : Option Schema} {o : Options} {name message : String} {required : Bool}
  {orderBy : Option (List String)} {p q : Pagination} {c : Option Cursor}

theorem clean_size_self_iff (name : String) (required : Bool) (ho : o.LimitsWhole) {n : Value}
    (hn : n.Whole)
    (hnull : n = .null → o.defaultLimit = .null ∧ required = false) :
    Clean (size o name required n) n ↔ o.Keeps n := by
  rcases hn with rfl | ⟨j, rfl⟩
  · obtain ⟨hdefault, rfl⟩ := hnull rfl
    rw [size_absent o name hdefault]
    exact ⟨fun _ => .inl rfl, fun _ => clean_pure_iff.2 rfl⟩
  · rw [clean_size_int_iff ho.greatest]
    constructor
    · rintro (⟨hj, hreplaces, hdefault, _⟩ | ⟨_, ⟨k, hk, hlt⟩, _, hmax⟩ | ⟨hj, hle, _⟩)
      · exact .inr ⟨j, rfl, .inr ⟨hj, hreplaces, hdefault.symm⟩⟩
      · rw [hk, Value.int.injEq] at hmax
        omega
      · exact .inr ⟨j, rfl, .inl ⟨hj, hle⟩⟩
    · rintro (hnull | ⟨i, hi, ⟨hj, hle⟩ | ⟨hj, hreplaces, hdefault⟩⟩)
      · cases hnull
      · cases hi
        exact .inr (.inr ⟨hj, hle, rfl⟩)
      · cases hi
        exact .inl ⟨hj, hreplaces, hdefault.symm, nofun⟩

theorem clean_atLeast_self {least n : Value} {tooLow : Value → Except Error Bool}
    (hn : n ≠ .null) (h : tooLow n = .ok false) :
    Clean (atLeast o name least tooLow message n) n := by
  rw [atLeast, if_neg (mt Value.isNull_iff.1 hn)]
  exact clean_lift_bind_iff.2 ⟨false, h, clean_pure_iff.2 rfl⟩

/-! ### Pagination -/

theorem pagination_of_admits {s : Strategy} (h : admits o p s = true) :
    pagination schema o orderBy p (some s) = parameters schema o orderBy p (some s) := by
  simp [pagination, h]

theorem plain_alone {s : Strategy} {a b : Value} (ha : a.Whole)
    (hb : if s.byCursor then b.Textual else b.Whole) : (alone s a b).Plain := by
  have hnumber := Value.whole_null
  have htoken : Value.null.Textual := .inl rfl
  cases s with
  | first => exact ⟨hnumber, hnumber, hnumber, hnumber, ha, hb, hnumber, htoken⟩
  | last => exact ⟨hnumber, hnumber, hnumber, hnumber, hnumber, htoken, ha, hb⟩
  | page => exact ⟨hnumber, hnumber, ha, hb, hnumber, htoken, hnumber, htoken⟩
  | offset => exact ⟨ha, hb, hnumber, hnumber, hnumber, htoken, hnumber, htoken⟩

theorem alone_injective {s : Strategy} {a b a' b' : Value} (h : alone s a b = alone s a' b') :
    a = a' ∧ b = b' := by
  have hparameters := congrArg (Pagination.parameters · s) h
  simpa [parameters_alone] using hparameters

theorem settles_alone {s : Strategy} {a b : Value} : (alone s a b).Settles o ↔
    o.Keeps (if s = .page then b else a) ∧ (s = .offset → a ≠ .null → b ≠ .null) := by
  constructor
  · rintro ⟨hsize, hoffset⟩
    rw [size_alone] at hsize
    refine ⟨hsize, ?_⟩
    rintro rfl
    exact hoffset
  · rintro ⟨hsize, hoffset⟩
    refine ⟨by rwa [size_alone], fun hlimit => ?_⟩
    cases s with
    | offset => exact hoffset rfl hlimit
    | first | last | page => exact absurd rfl hlimit

/-- Parameters that were checked for a strategy, checked again: they use that strategy, and become the same
with the same cursor exactly if they stay as they are. -/
structure Rechecked (schema : Option Schema) (o : Options) (orderBy : Option (List String))
    (q : Pagination) (c : Option Cursor) : Prop where
  plain : q.Plain
  again : ∃ used, conflict q = .ok used ∧
    ∀ c', Clean (pagination schema o orderBy q used) (q, c') ↔ q.Settles o ∧ c' = c

theorem cursored_rechecked (ho : o.LimitsWhole) {s : Strategy} (hs : s.byCursor = true) {a b : Value}
    (ha : a.Whole) (hb : b.Textual) (hadmits : admits o (alone s a b) s = true)
    (h : Clean (parameters schema o orderBy (alone s a b) (some s)) (q, c)) :
    Rechecked schema o orderBy q c := by
  obtain ⟨n, t, rfl, hn, hnames, ht⟩ := clean_cursored hs h
  obtain ⟨hwhole, hset⟩ := clean_size_whole ho ha hn
  have hgiven : n ≠ .null := fun hnull => by simpa using hset hnull
  have htextual : t.Textual := by
    rcases clean_token_cases ht with rfl | ⟨rfl, _⟩
    · exact hb
    · exact .inl rfl
  have hne : s ≠ .offset ∧ s ≠ .page := by
    constructor <;> rintro rfl <;> cases hs
  have hadmitted : admits o (alone s n t) s = true :=
    admits_of_admitted (admitted_of_ne hadmits hne.1)
  have hkeeps : (alone s n t).Settles o ↔ o.Keeps n := by
    rw [settles_alone, if_neg hne.2]
    exact and_iff_left fun hoffset => absurd hoffset hne.1
  refine ⟨plain_alone hwhole (by rw [if_pos hs]; exact htextual), some s,
    conflict_alone (.inl hgiven), fun c' => ?_⟩
  rw [pagination_of_admits hadmitted, hkeeps, 
    ← clean_size_self_iff s.parameters.1 true ho hwhole fun hnull => absurd hnull hgiven]
  constructor
  · intro h
    obtain ⟨n', t', hq, hn', _, ht'⟩ := clean_cursored hs h
    obtain ⟨rfl, rfl⟩ := alone_injective hq
    exact ⟨hn', congrArg Prod.snd (ht'.unique (token_settled ht))⟩
  · rintro ⟨hn, rfl⟩
    rw [parameters_cursored hs, clean_bind_iff fun _ => adds_bind (adds_requireOrder _) fun _ =>
      adds_bind (adds_token _ _ _) fun _ => adds_pure _]
    refine ⟨n, hn, (clean_bind_iff fun _ => adds_bind (adds_token _ _ _) fun _ => adds_pure _).2
      ⟨(), clean_requireOrder_iff.2 hnames, ?_⟩⟩
    exact (clean_bind_iff fun _ => adds_pure _).2 ⟨(t, c'), token_settled ht, clean_pure_iff.2 rfl⟩

theorem page_rechecked (ho : o.LimitsWhole) {a b : Value} (ha : a.Whole) (hb : b.Whole)
    (hadmits : admits o (alone .page a b) .page = true)
    (h : Clean (parameters schema o orderBy (alone .page a b) (some .page)) (q, c)) :
    Rechecked schema o orderBy q c := by
  obtain ⟨page, n, rfl, rfl, hn, hpage⟩ := clean_paged h
  obtain ⟨hwhole, hset⟩ := clean_size_whole ho hb hn
  have hgiven : n ≠ .null := fun hnull => by simpa using hset hnull
  obtain ⟨i, rfl, hi⟩ : ∃ i, page = .int i ∧ Value.precedes true (.int i) (.int 0) = .ok false := by
    rcases hpage with rfl | ⟨rfl, hlow⟩
    · exact ⟨1, rfl, rfl⟩
    · rcases ha with rfl | ⟨i, rfl⟩
      · cases hlow
      · exact ⟨i, rfl, hlow⟩
  have hadmitted : admits o (alone .page (.int i) n) .page = true :=
    admits_of_admitted (admitted_of_ne hadmits (by decide))
  have hkeeps : (alone .page (.int i) n).Settles o ↔ o.Keeps n :=
    settles_alone.trans (and_iff_left nofun)
  refine ⟨plain_alone (Value.whole_int i) hwhole, some .page, conflict_alone (.inl nofun),
    fun c' => ?_⟩
  rw [pagination_of_admits hadmitted, hkeeps, 
    ← clean_size_self_iff "page_size" true ho hwhole fun hnull => absurd hnull hgiven]
  constructor
  · intro h
    obtain ⟨page, n', hq, rfl, hn', _⟩ := clean_paged h
    obtain ⟨rfl, rfl⟩ := alone_injective hq
    exact ⟨hn', rfl⟩
  · rintro ⟨hn, rfl⟩
    rw [parameters, clean_bind_iff fun _ => adds_bind (adds_atLeast _ _ _ _ _) fun _ => adds_pure _]
    exact ⟨n, hn, (clean_bind_iff fun _ => adds_pure _).2
      ⟨.int i, clean_atLeast_self nofun hi, clean_pure_iff.2 rfl⟩⟩

theorem offset_rechecked (ho : o.LimitsWhole) {a b : Value} (ha : a.Whole) (hb : b.Whole)
    (hadmits : admits o (alone .offset a b) .offset = true)
    (h : Clean (parameters schema o orderBy (alone .offset a b) (some .offset)) (q, c)) :
    Rechecked schema o orderBy q c := by
  obtain ⟨limit, offset, rfl, rfl, hlimit, hoffset⟩ := clean_skipping h
  obtain ⟨hwhole, hset⟩ := clean_size_whole ho ha hlimit
  obtain ⟨i, rfl, hi, hzero⟩ : ∃ i, offset = .int i ∧
      Value.precedes false (.int i) (.int 0) = .ok false ∧ (b.truthy = false → i = 0) := by
    rcases hoffset with rfl | ⟨rfl, hlow⟩
    · exact ⟨0, rfl, rfl, fun _ => rfl⟩
    · rcases hb with rfl | ⟨i, rfl⟩
      · cases hlow
      · exact ⟨i, rfl, hlow, fun h => by simpa [Value.truthy] using h⟩
  have hadmitted : admits o (alone .offset limit (.int i)) .offset = true := by
    rcases admitted_of_admits hadmits with hadmitted | ⟨_, hfalse⟩
    · exact admits_of_admitted hadmitted
    · rw [hzero hfalse]
      unfold admits
      split
      · rfl
      · simp [alone, Value.truthy]
  have hpresent : Value.int i ≠ .null := by simp
  have hkeeps : (alone .offset limit (.int i)).Settles o ↔ o.Keeps limit :=
    settles_alone.trans (and_iff_left fun _ _ => hpresent)
  refine ⟨plain_alone hwhole (Value.whole_int i), some .offset, conflict_alone (.inr hpresent),
    fun c' => ?_⟩
  rw [pagination_of_admits hadmitted, hkeeps, ← clean_size_self_iff "limit" false ho hwhole hset]
  constructor
  · intro h
    obtain ⟨limit', offset, hq, rfl, hlimit', _⟩ := clean_skipping h
    obtain ⟨rfl, rfl⟩ := alone_injective hq
    exact ⟨hlimit', rfl⟩
  · rintro ⟨hlimit, rfl⟩
    rw [parameters, clean_bind_iff fun _ => adds_bind (adds_atLeast _ _ _ _ _) fun _ => adds_pure _]
    exact ⟨limit, hlimit, (clean_bind_iff fun _ => adds_pure _).2
      ⟨.int i, clean_atLeast_self hpresent hi, clean_pure_iff.2 rfl⟩⟩

theorem parameters_rechecked (ho : o.LimitsWhole) (hp : p.Plain) {s : Strategy} (honly : Only p s)
    (hadmits : admits o p s = true)
    (h : Clean (parameters schema o orderBy p (some s)) (q, c)) : Rechecked schema o orderBy q c := by
  rw [honly.eq_alone] at h hadmits
  cases s with
  | first => exact cursored_rechecked ho rfl hp.first hp.after hadmits h
  | last => exact cursored_rechecked ho rfl hp.last hp.before hadmits h
  | page => exact page_rechecked ho hp.page hp.pageSize hadmits h
  | offset => exact offset_rechecked ho hp.limit hp.offset hadmits h

theorem plain_empty : Pagination.empty.Plain :=
  plain_alone (s := .offset) Value.whole_null Value.whole_null

theorem plain_sized {n : Value} (hn : n.Whole) (s : Strategy) : (sized .empty n s).Plain := by
  have hempty := plain_empty
  cases s with
  | first => exact { hempty with first := hn }
  | last => exact { hempty with last := hn }
  | page => exact { hempty with pageSize := hn }
  | offset => exact { hempty with limit := hn }

/-- **Pagination that was checked, checked again.** A limit by itself does not become itself, since an
offset is put in beside it. -/
theorem pagination_rechecked (ho : o.LimitsWhole) (hp : p.Plain) {used : Option Strategy}
    (hused : conflict p = .ok used) (h : Clean (pagination schema o orderBy p used) (q, c)) :
    Rechecked schema o orderBy q c := by
  cases pagination_routes hused h with
  | given _ honly hadmits h => exact parameters_rechecked ho hp honly hadmits h
  | @standIn s _ _ _ hadmits h =>
    exact parameters_rechecked ho (plain_sized ho.default s) (only_sized s) hadmits h
  | limit _ hnone hq hc =>
    subst hq hc
    refine ⟨plain_alone ho.default Value.whole_null, ?_⟩
    rcases ho.default with hdefault | ⟨d, hdefault⟩
    · -- Without a default nothing is put in, before or after.
      have hpagination : pagination schema o orderBy .empty none = pure (.empty, none) := by
        have hstand : standIn o .empty = (.empty, none) := by
          unfold standIn
          split
          · rfl
          · rw [if_pos (Value.isNull_iff.2 hdefault)]
        simp only [pagination, Option.isSome_none, Bool.false_eq_true, if_false, hstand, parameters,
          hdefault]
        rfl
      have hempty : alone .offset o.defaultLimit .null = .empty := by
        rw [hdefault]
        rfl
      rw [hempty]
      refine ⟨none, rfl, fun c' => ?_⟩
      have hsettles : Pagination.empty.Settles o := ⟨.inl rfl, fun hlimit => absurd rfl hlimit⟩
      rw [hpagination, clean_pure_iff, and_iff_right hsettles]
      simp [eq_comm]
    · rw [hdefault]
      refine ⟨some .offset, conflict_alone (.inl nofun), fun c' => ?_⟩
      constructor
      · intro h
        obtain ⟨_, _, hchosen, _, h⟩ := clean_pagination h
        cases hchosen
        obtain ⟨limit, offset, hq, _, _, hoffset⟩ := clean_skipping h
        obtain ⟨_, rfl⟩ := alone_injective hq
        rcases hoffset with hoffset | ⟨_, hlow⟩
        · cases hoffset
        · cases hlow
      · rintro ⟨hsettles, _⟩
        exact absurd rfl (hsettles.offset nofun)

end Validation

namespace Params

open Checking Validation

variable {schema : Option Schema} {o : Options} {params : Params} {r : Request}

/-- What is checked again of a valid request is its pagination; everything else becomes itself. -/
theorem validateWith_request_iff {r' : Request} (hr : r.pagination.Plain) {given : Scalars}
    (hgiven : o.orders = false → given.orderBy = none ∧ given.directions = none)
    {es : List (Value × Value)} (horder : Clean (order given schema o) (r.orderBy, r.directions))
    (hfilters : Clean (givenFilters schema o es) r.filters) {used : Option Strategy}
    (hused : conflict r.pagination = .ok used) :
    ((request r).validateWith schema o).outcome = .ok r' ↔
      (r'.filters = r.filters ∧ r'.orderBy = r.orderBy ∧ r'.directions = r.directions) ∧
        Clean (pagination schema o r.orderBy r.pagination used) (r'.pagination, r'.cursor) := by
  have hscalars := read_entries (o := o) hr
  have horder' := order_settled hgiven horder r.pagination
  have hfilters' : givenFilters schema o (admitted o r.entries) = pure r.filters :=
    givenFilters_settled hfilters (lookup?_admitted (by decide) (by decide))
  rw [validateWith_eq_ok_iff]
  simp only [toEntries_request, Except.ok.injEq, exists_eq_left', clean_request_iff, scalars_eq,
    hscalars, hfilters', clean_pure_iff]
  constructor
  · rintro ⟨given', used', hread, hused', horder'', hfilters'', hpagination⟩
    cases hread
    cases hused.symm.trans hused'
    have hq := horder'.unique horder''
    rw [Prod.mk.injEq] at hq
    rw [← hq.1] at hpagination
    exact ⟨⟨hfilters''.symm, hq.1.symm, hq.2.symm⟩, hpagination⟩
  · rintro ⟨⟨hf, hnames, hdirections⟩, hpagination⟩
    rw [hf, hnames, hdirections]
    exact ⟨_, used, rfl, hused, horder', rfl, hpagination⟩

/-- **A valid request becomes itself again exactly if its pagination stays as it is.** -/
theorem validateWith_settled (ho : o.LimitsWhole) (hmembers : params.MembersWhole)
    (h : (params.validateWith schema o).outcome = .ok r) :
    ((∃ r', ((request r).validateWith schema o).outcome = .ok r' ∧ r'.equal r = .ok true) ↔
      r.pagination.Settles o) ∧
    (r.pagination.Settles o → ((request r).validateWith schema o).outcome = .ok r) := by
  obtain ⟨es, hes, h⟩ := validateWith_eq_ok_iff.1 h
  obtain ⟨given, used, hscalars, hused, horder, hfilters, hpagination⟩ := clean_request_iff.1 h
  have hmembers' : (Params.entries es).MembersWhole := by
    rintro es' ⟨⟩
    exact hmembers es hes
  have hread := scalars_read hscalars
  have hplain : given.pagination.Plain := hread ▸ plain_read hmembers'
  obtain ⟨hr, used', hused', hagain⟩ := pagination_rechecked ho hplain hused hpagination
  have hiff (r' : Request) : ((request r).validateWith schema o).outcome = .ok r' ↔ _ :=
    validateWith_request_iff hr (fun horders => hread ▸ ordering_read horders) horder hfilters hused'
  have hself : r.pagination.Settles o → ((request r).validateWith schema o).outcome = .ok r :=
    fun hsettles => (hiff r).2 ⟨⟨rfl, rfl, rfl⟩, (hagain r.cursor).2 ⟨hsettles, rfl⟩⟩
  have hreflexive : r.equal r = .ok true := by
    simp [Request.equal, Filter.equalAll_self, Pagination.equal]
  refine ⟨⟨?_, fun hsettles => ⟨r, hself hsettles, hreflexive⟩⟩, hself⟩
  rintro ⟨r', hr', hequal⟩
  obtain ⟨⟨hf, hnames, hdirections⟩, hpagination'⟩ := (hiff r').1 hr'
  have hplain' : r'.pagination.Plain := (pagination_rechecked ho hr hused' hpagination').plain
  have hsame : r'.pagination = r.pagination := by
    simp only [Request.equal, hf, hnames, hdirections, and_self, if_true, Filter.equalAll_self,
      ok_bind] at hequal
    exact (Pagination.equal_iff hplain' hr).1 hequal
  rw [hsame] at hpagination'
  exact ((hagain r'.cursor).1 hpagination').1

theorem limitsWhole_limited : limited.LimitsWhole :=
  ⟨Value.whole_int 20, Value.whole_int 50⟩

theorem membersWhole_thirdPage : (entries thirdPage).MembersWhole := by
  rintro es ⟨⟩ v name hname h
  have hv : v = .int 3 := by
    fin_cases hname <;> simp [thirdPage, pairedFilters, Value.lookup?] at h
    exact h.symm
  rw [hv]
  exact Value.whole_int 3

/-- A page of what a group of conditions selects becomes itself again, with the size that was put in. -/
theorem validateWith_settled_thirdPage :
    limited.LimitsWhole ∧ (entries thirdPage).MembersWhole ∧
    ∃ r, ((entries thirdPage).validateWith none limited).outcome = .ok r ∧
      r.pagination = { Pagination.empty with page := .int 3, pageSize := .int 20 } ∧
      ((request r).validateWith none limited).outcome = .ok r := by
  have hvalid : ((entries thirdPage).validateWith none limited).outcome = .ok
      ⟨[.group .all [.condition ⟨"a", .eq, .int 1⟩, .condition ⟨"b", .lt, .int 2⟩]], none, none,
        { Pagination.empty with page := .int 3, pageSize := .int 20 }, none⟩ := rfl
  have hsettles : ({ Pagination.empty with page := .int 3, pageSize := .int 20 } :
      Pagination).Settles limited := by
    refine ⟨.inr ⟨20, rfl, .inl ⟨by decide, fun k hk => ?_⟩⟩, fun hlimit => absurd rfl hlimit⟩
    cases hk
    decide
  exact ⟨limitsWhole_limited, membersWhole_thirdPage, _, hvalid, rfl,
    (validateWith_settled limitsWhole_limited membersWhole_thirdPage hvalid).2 hsettles⟩

/-- Options with a default limit and nothing else about pagination. -/
def capped : Options := { admitting with defaultLimit := .int 50 }

/-- **The request for everything does not become itself again where a default limit is put in for it.** An
offset is put in beside the limit only the second time. -/
theorem validateWith_unsettled :
    capped.LimitsWhole ∧ (entries []).MembersWhole ∧
    ∃ r r', ((entries []).validateWith none capped).outcome = .ok r ∧
      r.pagination = { Pagination.empty with limit := .int 50 } ∧
      ((request r).validateWith none capped).outcome = .ok r' ∧
      r'.pagination = { Pagination.empty with limit := .int 50, offset := .int 0 } ∧
      r'.equal r = .ok false := by
  have hlimit : ((entries []).validateWith none capped).outcome =
      .ok ⟨[], none, none, { Pagination.empty with limit := .int 50 }, none⟩ := rfl
  have hoffset : ((request ⟨[], none, none, { Pagination.empty with limit := .int 50 }, none⟩).validateWith
      none capped).outcome =
      .ok ⟨[], none, none, { Pagination.empty with limit := .int 50, offset := .int 0 }, none⟩ := rfl
  refine ⟨⟨Value.whole_int 50, Value.whole_null⟩, ?_, _, _, hlimit, rfl, hoffset, rfl, ?_⟩
  · rintro es ⟨⟩ v name _ h
    cases h
  · simp [Request.equal, Filter.equalAll, Pagination.equal, Pagination.toList, Pagination.empty,
      Value.equalItems, Value.equal, Value.number?]

end Params

end Sieve
