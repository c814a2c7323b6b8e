import Sieve.Proofs.Validation.Strict
import Sieve.Proofs.Value.Numbers

/-!
# What pagination becomes

A clean check of pagination leaves the parameters of one strategy, or at most a limit. Sizes of pages
and page numbers are then at least one, offsets at least zero, and a token is there together with the
cursor that it was decoded to.

* `Options.HasLimits`: options with limits that are at least one, where they are set;
* `Validation.size_limited`: what a clean check leaves of a number of rows;
* `Validation.Caught`: numbers that checks against zero tell from those that are out of bounds;
* `Validation.Paginated`: the forms of pagination that was checked;
* `Validation.pagination_paginated`: a clean check leaves one of these forms.
-/

namespace Sieve

/-- The limits are at least one, where they are set. -/
structure Options.HasLimits (o : Options) : Prop where
  default : o.defaultLimit = .null ∨ o.defaultLimit.AtLeast 1
  greatest : o.maxLimit = .null ∨ o.maxLimit.AtLeast 1

theorem Options.HasLimits.default_caught {o : Options} (ho : o.HasLimits) :
    ¬o.defaultLimit.EludesBounds := by
  rcases ho.default with h | h
  · rw [h]
    exact Value.not_eludesBounds_null
  · exact h.not_eludesBounds

/-- The number of rows is at least one, and not above the greatest limit if there is one. -/
structure Options.Within (o : Options) (n : Value) : Prop where
  least : n.AtLeast 1
  greatest : o.maxLimit = .null ∨ n.precedes true o.maxLimit = .ok true

namespace Validation

open Checking

variable {schema : Option Schema} {o : Options} {name : String} {given n : Value}

/-! ### Numbers -/

theorem replaces_of_clean {message : Except Error String} {r m : Value}
    (h : Clean (replace o name n r message) m) : o.replaces = true := by
  by_contra hstrict
  exact not_clean_replace (Bool.eq_false_iff.2 hstrict) h

theorem clean_replace {message : Except Error String} {r m : Value}
    (h : Clean (replace o name n r message) m) : m = r := by
  rw [replace, if_pos (replaces_of_clean h)] at h
  exact (clean_report_bind_iff.1 h).symm

theorem clean_require {required : Bool} {u : Unit} (h : Clean (require name required n) u) :
    required = false ∨ n ≠ .null := by
  unfold require at h
  split at h
  · exact absurd h not_clean_complain
  · next hfree =>
    by_cases hn : n = .null
    · subst hn
      exact .inl (by simpa [Value.isNull] using hfree)
    · exact .inr hn

/-- A number of rows that is not above the greatest limit is within the limits. -/
theorem within_of_not_above (hmax : o.maxLimit = .null ∨ o.maxLimit.AtLeast 1) (hn : n.AtLeast 1)
    (h : o.maxLimit = .null ∨ o.maxLimit.precedes false n = .ok false) : o.Within n := by
  refine ⟨hn, ?_⟩
  rcases h with h | h
  · exact .inl h
  · refine hmax.imp_right fun hmax => ?_
    obtain ⟨l, hl⟩ := hn.exists_level
    obtain ⟨k, hk⟩ := hmax.exists_level
    rw [hk.precedes_lt hl, Except.ok.injEq, decide_eq_false_iff_not, not_lt] at h
    rw [hl.precedes_le hk, decide_eq_true h]

/-- The greatest limit is within the limits. -/
theorem within_greatest (h : o.maxLimit.AtLeast 1) : o.Within o.maxLimit := by
  obtain ⟨l, hl⟩ := h.exists_level
  refine ⟨h, .inr ?_⟩
  rw [hl.precedes_le hl, decide_eq_true le_rfl]

/-- The number of rows, or the default in place of a missing one, is not above zero. -/
def TooLow (o : Options) (given : Value) : Prop :=
  (Options.setting given o.defaultLimit).precedes true (.int 0) = .ok true

/-- What a check leaves of a number of rows: nothing, a number within the limits, or the default in
place of a number that is not above zero. -/
inductive Limited (o : Options) (given : Value) : Value → Prop
  | absent : Limited o given .null
  | within {n : Value} (hgiven : ¬TooLow o given) (h : o.Within n) : Limited o given n
  | replaced (hgiven : TooLow o given) (hreplaces : o.replaces = true) :
      Limited o given o.defaultLimit

/-- The routes of a number of rows through its check. -/
theorem size_limited (hdefault : ¬o.defaultLimit.EludesBounds)
    (hmax : o.maxLimit = .null ∨ o.maxLimit.AtLeast 1) (hgiven : ¬given.EludesBounds)
    {required : Bool} {m : Value} (h : Clean (size o name required given) m) :
    Limited o given m ∧ (required = true → m ≠ .null) := by
  have hmissing : ∀ n u, Clean (require name required n) u → required = true → n ≠ .null :=
    fun n u h hrequired => (clean_require h).resolve_left (by simp [hrequired])
  have hkept : ∀ n, ¬TooLow o given → o.Within n →
      Limited o given n ∧ (required = true → n ≠ .null) :=
    fun n hnot hn => ⟨.within hnot hn, fun _ => hn.least.ne_null⟩
  unfold size at h
  dsimp only at h
  split at h
  · next hnull =>
    obtain ⟨u, hrequire, h⟩ := (clean_bind_iff fun _ => adds_pure _).1 h
    rw [← clean_pure_iff.1 h]
    exact ⟨.absent, fun hrequired =>
      absurd (Value.isNull_iff.1 hnull) (hmissing _ u hrequire hrequired)⟩
  · obtain ⟨low, hlow, h⟩ := clean_lift_bind_iff.1 h
    cases low with
    | true =>
      -- Too small a number is replaced by the default, which may be missing.
      obtain ⟨r, hr, h⟩ := (clean_bind_iff fun _ =>
        adds_bind (adds_require _ _ _) fun _ => adds_pure _).1 h
      obtain ⟨u, hrequire, h⟩ := (clean_bind_iff fun _ => adds_pure _).1 h
      cases clean_pure_iff.1 h
      rw [clean_replace hr] at hrequire ⊢
      exact ⟨.replaced hlow (replaces_of_clean hr), hmissing _ u hrequire⟩
    | false =>
      have hnot : ¬TooLow o given := by
        rw [TooLow, hlow]
        nofun
      have hset : (Options.setting given o.defaultLimit).AtLeast 1 := by
        refine Value.atLeast_one ?_ hlow
        unfold Options.setting
        split
        · exact hdefault
        · exact hgiven
      simp only [Bool.false_eq_true, if_false] at h
      split at h
      · next hnull =>
        rw [← clean_pure_iff.1 h]
        exact hkept _ hnot (within_of_not_above hmax hset (.inl (Value.isNull_iff.1 hnull)))
      · next hnull =>
        obtain ⟨high, hhigh, h⟩ := clean_lift_bind_iff.1 h
        cases high with
        | true =>
          rw [clean_replace h]
          exact hkept _ hnot (within_greatest (hmax.resolve_left (mt Value.isNull_iff.2 hnull)))
        | false =>
          rw [← clean_pure_iff.1 h]
          exact hkept _ hnot (within_of_not_above hmax hset (.inr hhigh))

/-- A number of rows that is required is at least one. -/
theorem clean_size (ho : o.HasLimits) (hgiven : ¬given.EludesBounds) {m : Value}
    (h : Clean (size o name true given) m) : m.AtLeast 1 := by
  obtain ⟨hlimited, hset⟩ := size_limited ho.default_caught ho.greatest hgiven h
  cases hlimited with
  | absent => exact absurd rfl (hset rfl)
  | within _ h => exact h.least
  | replaced => exact ho.default.resolve_left (hset rfl)

/-- A number with a least value is that value, or as it was given and not too low. -/
theorem clean_atLeast {message : String} {least m : Value} {tooLow : Value → Except Error Bool}
    (h : Clean (atLeast o name least tooLow message given) m) :
    m = least ∨ m = given ∧ tooLow given = .ok false := by
  unfold atLeast at h
  split at h
  · exact .inl (clean_pure_iff.1 h).symm
  · obtain ⟨low, hlow, h⟩ := clean_lift_bind_iff.1 h
    cases low with
    | true => exact .inl (clean_replace h)
    | false => exact .inr ⟨(clean_pure_iff.1 h).symm, hlow⟩

/-! ### Tokens -/

/-- There is a cursor exactly if there is a token, and its fields are those to order by. -/
def Anchored (names : List String) (token : Value) (c : Option Cursor) : Prop :=
  (c.isSome = true ↔ token ≠ .null) ∧ ∀ d ∈ c, (d.map (·.1)).Perm names

theorem anchored_none (names : List String) : Anchored names .null none :=
  ⟨by simp, by simp⟩

/-- A token that is kept was decoded to a cursor for the ordering. -/
theorem clean_token {orderBy : Option (List String)} (hnames : orderBy.getD [] ≠ [])
    {kept : Value} {c : Option Cursor} (h : Clean (token schema o name orderBy given) (kept, c)) :
    Anchored (orderBy.getD []) kept c := by
  have hdrop : ∀ reason : String, Clean (dropToken name reason) (kept, c) →
      Anchored (orderBy.getD []) kept c := by
    intro reason h
    cases clean_report_bind_iff.1 h
    exact anchored_none _
  have hordered : (orderBy.getD []).isEmpty = false := by simpa using hnames
  rw [token_eq, hordered, Bool.or_false] at h
  split at h
  · next hnull =>
    cases clean_pure_iff.1 h
    rw [Value.isNull_iff.1 hnull]
    exact anchored_none _
  · next hnull =>
    split at h
    · split at h
      · exact hdrop _ h
      · exact absurd h not_clean_fail
    · split at h
      · next hperm =>
        obtain ⟨d, rfl, hnames'⟩ := RawCursor.isPerm_iff.1 hperm
        cases clean_pure_iff.1 h
        refine ⟨?_, ?_⟩
        · simp only [Option.isSome_some, true_iff]
          rintro rfl
          exact hnull rfl
        · rw [RawCursor.whole_raw]
          rintro d ⟨⟩
          exact List.isPerm_iff.1 hnames'
      · split at h
        · exact hdrop _ h
        · exact absurd h not_clean_complain_bind

/-! ### Forms -/

/-- The strategy is one of those that options restrict pagination to, if they do. -/
def Admitted (o : Options) (s : Strategy) : Prop :=
  ∀ types, o.paginationTypes = some types → s ∈ types

/-- The two parameters of a strategy, and no others. -/
def alone (s : Strategy) (a b : Value) : Pagination :=
  match s with
  | .first => { Pagination.empty with first := a, after := b }
  | .last => { Pagination.empty with last := a, before := b }
  | .page => { Pagination.empty with page := a, pageSize := b }
  | .offset => { Pagination.empty with limit := a, offset := b }

/-- The forms of pagination that was checked: rows after or before a cursor, a page, rows from an
offset, or all rows up to a limit. -/
inductive Paginated (o : Options) (names : List String) : Pagination → Option Cursor → Prop
  | cursored {s : Strategy} {n token : Value} {c : Option Cursor} (hs : s.byCursor = true)
      (hadmitted : Admitted o s) (hn : n.AtLeast 1) (hnames : names ≠ [])
      (hanchored : Anchored names token c) : Paginated o names (alone s n token) c
  | paged {page n : Value} (hadmitted : Admitted o .page) (hpage : page.AtLeast 1)
      (hn : n.AtLeast 1) : Paginated o names (alone .page page n) none
  | skipping {limit offset : Value}
      (hadmitted : Admitted o .offset ∨ offset.equal (.int 0) = .ok true)
      (hoffset : offset.AtLeast 0) : Paginated o names (alone .offset limit offset) none
  | unpaged {limit : Value} : Paginated o names (alone .offset limit .null) none

/-- No parameter is given but those of the strategy. -/
def Only (p : Pagination) (s : Strategy) : Prop :=
  ∀ t, p.uses t = true → t = s

/-- Numbers of rows and of pages that are not positive are found by a check against zero, and so are
negative offsets. -/
structure Caught (p : Pagination) : Prop where
  offset : p.offset ≠ .float .nan
  page : ¬p.page.EludesBounds
  pageSize : ¬p.pageSize.EludesBounds
  first : ¬p.first.EludesBounds
  last : ¬p.last.EludesBounds

theorem parameters_of_not_uses {p : Pagination} {s : Strategy} (h : ¬p.uses s = true) :
    p.parameters s = (.null, .null) := by
  rw [Pagination.uses, Bool.or_eq_true, not_or] at h
  simpa [Prod.ext_iff] using h

theorem mem_used {p : Pagination} {s : Strategy} (h : p.uses s = true) : s ∈ p.used :=
  List.mem_filter.2 ⟨by cases s <;> decide, h⟩

theorem Only.of_used {p : Pagination} {s : Strategy} (h : p.used = [s]) : Only p s := by
  intro t ht
  have hmem := mem_used ht
  rw [h] at hmem
  exact List.mem_singleton.1 hmem

/-- The parameters of the other strategies are null. -/
theorem Only.others {p : Pagination} {s : Strategy} (h : Only p s) :
    ∀ t, t ≠ s → p.parameters t = (.null, .null) :=
  fun t hne => parameters_of_not_uses fun huses => hne (h t huses)

theorem Only.eq_alone {p : Pagination} {s : Strategy} (h : Only p s) :
    p = alone s (p.parameters s).1 (p.parameters s).2 := by
  obtain ⟨limit, offset, page, pageSize, first, after, last, before⟩ := p
  have hfirst := h.others .first
  have hlast := h.others .last
  have hpage := h.others .page
  have hoffset := h.others .offset
  cases s <;> simp_all [Pagination.parameters, alone, Pagination.empty]

/-- Without parameters of any strategy there is no parameter at all. -/
theorem eq_empty_of_used {p : Pagination} (h : p.used = []) : p = .empty := by
  have hunused : ∀ t, ¬p.uses t = true := by
    intro t huses
    have hmem := mem_used huses
    rw [h] at hmem
    cases hmem
  have honly : Only p .first := fun t huses => absurd huses (hunused t)
  have hfirst := parameters_of_not_uses (hunused .first)
  rw [honly.eq_alone, hfirst]
  rfl

theorem admitted_of_admits {p : Pagination} {s : Strategy} (h : admits o p s = true) :
    Admitted o s ∨ s = .offset ∧ p.offset.truthy = false := by
  unfold admits at h
  split at h
  · next hnone =>
    refine .inl fun types htypes => ?_
    rw [hnone] at htypes
    cases htypes
  · next types hsome =>
    rw [Bool.or_eq_true] at h
    rcases h with hmem | hoffset
    · refine .inl fun types' htypes => ?_
      rw [hsome] at htypes
      cases htypes
      simpa using hmem
    · exact .inr (by simpa using hoffset)

theorem admitted_of_ne {p : Pagination} {s : Strategy} (h : admits o p s = true)
    (hne : s ≠ .offset) : Admitted o s :=
  (admitted_of_admits h).resolve_right fun hoffset => hne hoffset.1

variable {orderBy : Option (List String)} {p q : Pagination} {c : Option Cursor}

/-- Rows after a cursor and rows before one are checked in the same way. -/
theorem parameters_cursored {s : Strategy} (hs : s.byCursor = true) (a b : Value) :
    parameters schema o orderBy (alone s a b) (some s) = (do
      let n ← size o s.parameters.1 true a
      requireOrder orderBy
      let (t, c) ← token schema o s.parameters.2 orderBy b
      return (alone s n t, c)) := by
  cases s <;> first | rfl | cases hs

theorem clean_cursored {s : Strategy} {a b : Value} (hs : s.byCursor = true)
    (h : Clean (parameters schema o orderBy (alone s a b) (some s)) (q, c)) :
    ∃ n t, q = alone s n t ∧ Clean (size o s.parameters.1 true a) n ∧ orderBy.getD [] ≠ [] ∧
      Clean (token schema o s.parameters.2 orderBy b) (t, c) := by
  rw [parameters_cursored hs] at h
  obtain ⟨n, hn, h⟩ := (clean_bind_iff fun _ => adds_bind (adds_requireOrder _) fun _ =>
    adds_bind (adds_token _ _ _) fun _ => adds_pure _).1 h
  obtain ⟨_, hnames, h⟩ := (clean_bind_iff fun _ =>
    adds_bind (adds_token _ _ _) fun _ => adds_pure _).1 h
  obtain ⟨⟨t, d⟩, htoken, h⟩ := (clean_bind_iff fun _ => adds_pure _).1 h
  cases clean_pure_iff.1 h
  exact ⟨n, t, rfl, hn, clean_requireOrder_iff.1 hnames, htoken⟩

theorem clean_paged {a b : Value}
    (h : Clean (parameters schema o orderBy (alone .page a b) (some .page)) (q, c)) :
    ∃ page n, q = alone .page page n ∧ c = none ∧ Clean (size o "page_size" true b) n ∧
      (page = .int 1 ∨ page = a ∧ a.precedes true (.int 0) = .ok false) := by
  unfold parameters at h
  obtain ⟨n, hn, h⟩ := (clean_bind_iff fun _ => adds_bind (adds_atLeast _ _ _ _ _) fun _ =>
    adds_pure _).1 h
  obtain ⟨page, hpage, h⟩ := (clean_bind_iff fun _ => adds_pure _).1 h
  cases clean_pure_iff.1 h
  exact ⟨page, n, rfl, rfl, hn, clean_atLeast hpage⟩

theorem clean_skipping {a b : Value}
    (h : Clean (parameters schema o orderBy (alone .offset a b) (some .offset)) (q, c)) :
    ∃ limit offset, q = alone .offset limit offset ∧ c = none ∧ Clean (size o "limit" false a) limit ∧
      (offset = .int 0 ∨ offset = b ∧ b.precedes false (.int 0) = .ok false) := by
  unfold parameters at h
  obtain ⟨limit, hlimit, h⟩ := (clean_bind_iff fun _ => adds_bind (adds_atLeast _ _ _ _ _) fun _ =>
    adds_pure _).1 h
  obtain ⟨offset, hoffset, h⟩ := (clean_bind_iff fun _ => adds_pure _).1 h
  cases clean_pure_iff.1 h
  exact ⟨limit, offset, rfl, rfl, hlimit, clean_atLeast hoffset⟩

theorem cursored_paginated (ho : o.HasLimits) {s : Strategy} {a b : Value} (hs : s.byCursor = true)
    (ha : ¬a.EludesBounds) (hadmitted : Admitted o s)
    (h : Clean (parameters schema o orderBy (alone s a b) (some s)) (q, c)) :
    Paginated o (orderBy.getD []) q c := by
  obtain ⟨n, t, rfl, hn, hnames, htoken⟩ := clean_cursored hs h
  exact .cursored hs hadmitted (clean_size ho ha hn) hnames (clean_token hnames htoken)

theorem page_paginated (ho : o.HasLimits) {a b : Value} (ha : ¬a.EludesBounds)
    (hb : ¬b.EludesBounds) (hadmitted : Admitted o .page)
    (h : Clean (parameters schema o orderBy (alone .page a b) (some .page)) (q, c)) :
    Paginated o (orderBy.getD []) q c := by
  obtain ⟨page, n, rfl, rfl, hn, hpage⟩ := clean_paged h
  have hleast : page.AtLeast 1 := by
    rcases hpage with rfl | ⟨rfl, hlow⟩
    · exact Value.atLeast_self 1
    · exact Value.atLeast_one ha hlow
  exact .paged hadmitted hleast (clean_size ho hb hn)

theorem offset_paginated {a b : Value} (hb : b ≠ .float .nan)
    (hadmits : admits o (alone .offset a b) .offset = true)
    (h : Clean (parameters schema o orderBy (alone .offset a b) (some .offset)) (q, c)) :
    Paginated o (orderBy.getD []) q c := by
  obtain ⟨limit, offset, rfl, rfl, _, rfl | ⟨rfl, hlow⟩⟩ := clean_skipping h
  · exact .skipping (.inr (by simp)) (Value.atLeast_self 0)
  · refine .skipping ?_ (Value.atLeast_zero hb hlow)
    exact (admitted_of_admits hadmits).imp_right fun hzero => Value.equal_zero hb hlow hzero.2

/-- The parameters of a strategy that is admitted take one of the forms. -/
theorem parameters_paginated (ho : o.HasLimits) (hp : Caught p) {s : Strategy} (honly : Only p s)
    (hadmits : admits o p s = true)
    (h : Clean (parameters schema o orderBy p (some s)) (q, c)) :
    Paginated o (orderBy.getD []) q c := by
  -- No other parameter is given, so those of the strategy are all there is.
  obtain ⟨a, b, rfl⟩ : ∃ a b, p = alone s a b := ⟨_, _, honly.eq_alone⟩
  cases s with
  | first => exact cursored_paginated ho rfl hp.first (admitted_of_ne hadmits (by decide)) h
  | last => exact cursored_paginated ho rfl hp.last (admitted_of_ne hadmits (by decide)) h
  | page => exact page_paginated ho hp.page hp.pageSize (admitted_of_ne hadmits (by decide)) h
  | offset => exact offset_paginated hp.offset hadmits h

/-- The default strategy stands in with the default limit as its size. -/
theorem caught_sized {n : Value} (hn : n.AtLeast 1) (s : Strategy) : Caught (sized .empty n s) := by
  have hsize := hn.not_eludesBounds
  have hnull := Value.not_eludesBounds_null
  cases s with
  | first => exact ⟨nofun, hnull, hnull, hsize, hnull⟩
  | last => exact ⟨nofun, hnull, hnull, hnull, hsize⟩
  | page => exact ⟨nofun, hnull, hsize, hnull, hnull⟩
  | offset => exact ⟨nofun, hnull, hnull, hnull, hnull⟩

theorem only_sized {n : Value} (s : Strategy) : Only (sized .empty n s) s := by
  intro t ht
  cases s <;> cases t <;> first | rfl | cases ht

theorem used_of_conflict {used : Option Strategy} (h : conflict p = .ok used) :
    p.used = used.toList := by
  unfold conflict at h
  split at h
  · next hused =>
    cases h
    exact hused
  · next hused =>
    cases h
    exact hused
  · cases h

/-- The strategy in use, or the one that stands in, is checked if there is one. -/
theorem clean_pagination {used : Option Strategy}
    (h : Clean (pagination schema o orderBy p used) (q, c)) :
    ∃ p' s', (if used.isSome then (p, used) else standIn o p) = (p', s') ∧
      (∀ s, s' = some s → admits o p' s = true) ∧
      Clean (parameters schema o orderBy p' s') (q, c) := by
  unfold pagination at h
  generalize (if used.isSome then (p, used) else standIn o p) = chosen at h
  obtain ⟨p', s'⟩ := chosen
  refine ⟨p', s', rfl, ?_⟩
  cases s' with
  | none => exact ⟨by simp, h⟩
  | some s =>
    dsimp only at h
    split at h
    · next hadmits =>
      refine ⟨?_, h⟩
      rintro t ⟨⟩
      exact hadmits
    · exact absurd h not_clean_complain_bind

/-- What is checked: the parameters of one strategy that are given, those of the default strategy, with
the default limit as its size, or nothing, which leaves the default limit. -/
inductive Routes (schema : Option Schema) (o : Options) (orderBy : Option (List String))
    (p q : Pagination) (c : Option Cursor) : Prop
  | given {s : Strategy} (hgiven : p ≠ .empty) (honly : Only p s) (hadmits : admits o p s = true)
      (h : Clean (parameters schema o orderBy p (some s)) (q, c)) : Routes schema o orderBy p q c
  | standIn {s : Strategy} (hempty : p = .empty) (htype : o.defaultPaginationType = some s)
      (hlimit : o.defaultLimit ≠ .null) (hadmits : admits o (sized .empty o.defaultLimit s) s = true)
      (h : Clean (parameters schema o orderBy (sized .empty o.defaultLimit s) (some s)) (q, c)) :
      Routes schema o orderBy p q c
  | limit (hempty : p = .empty) (hnone : o.defaultPaginationType = none ∨ o.defaultLimit = .null)
      (hq : q = alone .offset o.defaultLimit .null) (hc : c = none) : Routes schema o orderBy p q c

theorem pagination_routes {used : Option Strategy} (hused : conflict p = .ok used)
    (h : Clean (pagination schema o orderBy p used) (q, c)) : Routes schema o orderBy p q c := by
  have hused' := used_of_conflict hused
  obtain ⟨p', s', hchosen, hadmits, h⟩ := clean_pagination h
  cases used with
  | some s =>
    cases hchosen
    refine .given ?_ (.of_used hused') (hadmits s rfl) h
    rintro rfl
    cases hused'
  | none =>
    have hempty : p = .empty := eq_empty_of_used hused'
    subst hempty
    have hstand : standIn o .empty = (p', s') := hchosen
    unfold standIn at hstand
    split at hstand
    · next hnone =>
      cases hstand
      cases clean_pure_iff.1 h
      exact .limit rfl (.inl hnone) rfl rfl
    · next s hsome =>
      split at hstand
      · next hnull =>
        cases hstand
        cases clean_pure_iff.1 h
        exact .limit rfl (.inr (Value.isNull_iff.1 hnull)) rfl rfl
      · next hlimit =>
        cases hstand
        exact .standIn rfl hsome (mt Value.isNull_iff.2 hlimit) (hadmits s rfl) h

/-- **A clean check leaves pagination in one of the forms.** -/
theorem pagination_paginated (ho : o.HasLimits) (hp : Caught p) {used : Option Strategy}
    (hused : conflict p = .ok used)
    (h : Clean (pagination schema o orderBy p used) (q, c)) :
    Paginated o (orderBy.getD []) q c := by
  cases pagination_routes hused h with
  | given _ honly hadmits h => exact parameters_paginated ho hp honly hadmits h
  | @standIn s _ _ hlimit hadmits h =>
    have hsize := ho.default.resolve_left hlimit
    exact parameters_paginated ho (caught_sized hsize s) (only_sized s) hadmits h
  | limit _ _ hq hc =>
    subst hq hc
    exact .unpaged

end Validation

end Sieve
