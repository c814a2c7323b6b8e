import Sieve.Proofs.Validation.Replacing

/-!
# Limits of pages

The number of rows that a valid request asks for is at least one and not above the greatest limit,
whether it was given, stands in for a missing one, or replaces another one. There is one exception: the
default limit is not checked where it replaces a number that is not above zero, nor where it is the limit
of a request without pagination.

* `Validation.Unchecked`: where the default limit is taken without a check;
* `Validation.pagination_limited`: what a clean check of pagination leaves of the number of rows;
* `Params.validate_limited`: when the number of rows of a valid request is within the limits;
* `Params.validate_uncheckedDefault`: a default limit above the greatest one.
-/

namespace Sieve

namespace Validation

open Checking

variable {schema : Option Schema} {o : Options} {given n : Value}

/-- The number of rows of a strategy. -/
theorem size_alone (s : Strategy) (a b : Value) :
    (alone s a b).size = if s = .page then b else a := by
  by_cases hgiven : a ≠ .null ∨ b ≠ .null
  · rw [Pagination.size, strategy?_alone hgiven]
    cases s <;> rfl
  · rw [not_or, not_not, not_not] at hgiven
    rw [hgiven.1, hgiven.2]
    cases s <;> rfl

variable {orderBy : Option (List String)} {p q : Pagination} {c : Option Cursor}

/-- A limit by itself is the number of rows. -/
theorem size_limit (n : Value) : { Pagination.empty with limit := n }.size = n :=
  size_alone .offset n .null

/-- The default strategy stands in with the default limit as its number of rows. -/
theorem size_sized (n : Value) (s : Strategy) : (sized .empty n s).size = n := by
  rw [(only_sized s).eq_alone, size_alone]
  cases s <;> rfl

theorem parameters_limited (hdefault : ¬o.defaultLimit.EludesBounds)
    (hmax : o.maxLimit = .null ∨ o.maxLimit.AtLeast 1) {s : Strategy} (honly : Only p s)
    (hsize : ¬p.size.EludesBounds)
    (h : Clean (parameters schema o orderBy p (some s)) (q, c)) : Limited o p.size q.size := by
  -- No other parameter is given, so those of the strategy are all there is.
  obtain ⟨a, b, rfl⟩ : ∃ a b, p = alone s a b := ⟨_, _, honly.eq_alone⟩
  rw [size_alone] at hsize ⊢
  cases s with
  | first | last =>
    obtain ⟨n, t, rfl, hn, _⟩ := clean_cursored rfl h
    rw [size_alone]
    exact (size_limited hdefault hmax hsize hn).1
  | page =>
    obtain ⟨page, n, rfl, _, hn, _⟩ := clean_paged h
    rw [size_alone]
    exact (size_limited hdefault hmax hsize hn).1
  | offset =>
    obtain ⟨limit, offset, rfl, _, hlimit, _⟩ := clean_skipping h
    rw [size_alone]
    exact (size_limited hdefault hmax hsize hlimit).1

/-- The default limit is taken without a check: nothing about pagination is given and no strategy stands
in, or invalid parameters are replaced and the number of rows is not above zero. -/
def Unchecked (o : Options) (p : Pagination) : Prop :=
  p = .empty ∧ o.defaultPaginationType = none ∨ o.replaces = true ∧ TooLow o p.size

theorem Limited.unchecked_or_within (h : Limited o given n) (hn : n ≠ .null)
    (hp : Unchecked o p ↔ o.replaces = true ∧ TooLow o given) :
    Unchecked o p ∧ n = o.defaultLimit ∨ ¬Unchecked o p ∧ o.Within n := by
  cases h with
  | absent => exact absurd rfl hn
  | within hgiven h => exact .inr ⟨fun hunchecked => hgiven (hp.1 hunchecked).2, h⟩
  | replaced hgiven hreplaces => exact .inl ⟨hp.2 ⟨hreplaces, hgiven⟩, rfl⟩

/-- The default stands in for a missing number of rows, or is given in its place. -/
theorem tooLow_default : TooLow o o.defaultLimit ↔ TooLow o .null := by
  have hsame : Options.setting o.defaultLimit o.defaultLimit = o.defaultLimit := by
    unfold Options.setting
    split <;> rfl
  rw [TooLow, TooLow, hsame, Options.setting_null]

/-- **The number of rows that is left** is the default where that is taken without a check, and within
the limits elsewhere. -/
theorem pagination_limited (hdefault : ¬o.defaultLimit.EludesBounds)
    (hmax : o.maxLimit = .null ∨ o.maxLimit.AtLeast 1) (hp : ¬p.size.EludesBounds)
    {used : Option Strategy} (hused : conflict p = .ok used)
    (h : Clean (pagination schema o orderBy p used) (q, c)) (hq : q.size ≠ .null) :
    Unchecked o p ∧ q.size = o.defaultLimit ∨ ¬Unchecked o p ∧ o.Within q.size := by
  cases pagination_routes hused h with
  | given hgiven honly _ h =>
    refine (parameters_limited hdefault hmax honly hp h).unchecked_or_within hq ?_
    rw [Unchecked, or_iff_right fun hempty => hgiven hempty.1]
  | @standIn s hempty htype _ _ hchecked =>
    subst hempty
    have hlimited := parameters_limited hdefault hmax (only_sized s) (by rwa [size_sized]) hchecked
    refine hlimited.unchecked_or_within hq ?_
    rw [Unchecked, or_iff_right fun hnone => by simp [htype] at hnone, size_sized, tooLow_default]
    rfl
  | limit hempty hnone hsize hc =>
    subst hempty hsize
    rcases hnone with hnone | hnull
    · exact .inl ⟨.inl ⟨rfl, hnone⟩, size_limit _⟩
    · -- Without a default there is no limit at all.
      exact absurd ((size_limit _).trans hnull) hq

theorem size_cases (p : Pagination) :
    p.size = p.limit ∨ p.size = p.pageSize ∨ p.size = p.first ∨ p.size = p.last := by
  unfold Pagination.size
  split
  · exact .inr (.inl rfl)
  · exact .inr (.inr (.inl rfl))
  · exact .inr (.inr (.inr rfl))
  · exact .inl rfl

end Validation

/-- Members of enumerations are taken by their values as numbers. No such value of a number of rows is
above zero and below one, or the double that is no number. -/
def Params.SizesCaught (params : Params) : Prop :=
  ∀ es, params.toEntries = .ok es → ∀ v, ∀ name ∈ ["limit", "page_size", "first", "last"],
    Value.lookup? name es = some (.member v) → ¬v.EludesBounds

namespace Validation

open Checking

theorem size_parsed_caught {o : Options} {es : List (Value × Value)}
    (h : (Params.entries es).SizesCaught) : ¬(parsed o es).pagination.size.EludesBounds := by
  have hbound : ∀ name ∈ ["limit", "page_size", "first", "last"],
      ¬(Scalars.parameter (admitted o es) name Intake.integer).number.EludesBounds :=
    fun name hname => number_admitted (P := (¬Value.EludesBounds ·))
      (by fin_cases hname <;> decide) Value.not_eludesBounds_null Value.not_eludesBounds_int
      fun v => h es rfl v name hname
  rcases size_cases (parsed o es).pagination with hsize | hsize | hsize | hsize <;> rw [hsize] <;>
    exact hbound _ (by simp)

end Validation

/-- A call with a default limit and a greatest one. -/
def Overrides.limits (default greatest : Int) : Overrides :=
  { Overrides.none with defaultLimit := .int default, maxLimit := .int greatest }

theorem Options.resolve_limits (default greatest : Int) :
    resolve .standard none (.limits default greatest) =
      .ok { standard false with defaultLimit := .int default, maxLimit := .int greatest } := by
  have hset : ∀ i below, limitSetting (.int i) below = .int i := fun i below => by
    simp [limitSetting, limitInForce, Value.isNull]
  show Except.ok _ = _
  simp only [Overrides.limits, hset]
  rfl

namespace Params

open Checking Validation

variable {params : Params} {global : Properties} {schema : Option Schema} {call : Overrides}
  {o : Options} {es : List (Value × Value)} {r : Request}

/-- **The limits are enforced, except on the default limit where that is taken without a check.** What
is left of a number of rows is within the limits exactly if the default is, as far as it is unchecked. -/
theorem validate_limited (hresolve : Options.resolve global schema call = .ok o)
    (hdefault : ¬o.defaultLimit.EludesBounds) (hmax : o.maxLimit = .null ∨ o.maxLimit.AtLeast 1)
    (hes : params.toEntries = .ok es) (hsizes : params.SizesCaught)
    (h : (params.validate global schema call).outcome = .ok r) (hsize : r.size ≠ .null) :
    o.Within r.size ↔ (Unchecked o (parsed o es).pagination → o.Within o.defaultLimit) := by
  rw [validate_of_resolve hresolve] at h
  obtain ⟨es', hes', h⟩ := validateWith_eq_ok_iff.1 h
  rw [hes] at hes'
  cases hes'
  obtain ⟨given, used, hscalars, hused, _, _, hpagination⟩ := clean_request_iff.1 h
  have hgiven : given = parsed o es := scalars_read hscalars
  subst hgiven
  have hsizes' : (Params.entries es).SizesCaught := by
    rintro es' ⟨⟩
    exact hsizes es hes
  rcases pagination_limited hdefault hmax (size_parsed_caught hsizes') hused hpagination hsize with
    ⟨hunchecked, hr⟩ | ⟨hchecked, hr⟩
  · have hdefault' : r.size = o.defaultLimit := hr
    rw [hdefault']
    exact ⟨fun hwithin _ => hwithin, fun himp => himp hunchecked⟩
  · exact ⟨fun _ hunchecked => absurd hunchecked hchecked, fun _ => hr⟩

/-- A number of rows that is given is within the limits, even where the default is not. -/
theorem validate_limited_given :
    Options.resolve .standard none (.limits 50 10) =
      .ok { Options.standard false with defaultLimit := .int 50, maxLimit := .int 10 } ∧
    (entries [(.text "limit", .int 7)]).SizesCaught ∧
    ∃ r, ((entries [(.text "limit", .int 7)]).validate .standard none (.limits 50 10)).outcome =
        .ok r ∧ r.size = .int 7 ∧
      Options.Within { Options.standard false with defaultLimit := .int 50, maxLimit := .int 10 }
        r.size := by
  have hsizes : (entries [(.text "limit", .int 7)]).SizesCaught := by
    rintro es ⟨⟩ v name hname h
    fin_cases hname <;> simp [Value.lookup?] at h
  have hvalid : ((entries [(.text "limit", .int 7)]).validate .standard none
      (.limits 50 10)).outcome =
        .ok ⟨[], none, none, { Pagination.empty with limit := .int 7, offset := .int 0 }, none⟩ := by
    rw [validate_of_resolve (Options.resolve_limits 50 10)]
    rfl
  have hmax : (Value.int 10).AtLeast 1 := by
    rw [Value.AtLeast, Value.precedes_int]
    rfl
  have hgiven : Value.int 7 ≠ .null := by simp
  refine ⟨Options.resolve_limits 50 10, hsizes, _, hvalid, rfl, ?_⟩
  refine (validate_limited (Options.resolve_limits 50 10) (Value.not_eludesBounds_int 50)
    (.inr hmax) rfl hsizes hvalid hgiven).2 ?_
  rintro (⟨hempty, _⟩ | ⟨hreplaces, _⟩)
  · cases hempty
  · cases hreplaces

/-- **The default limit passes unchecked where nothing about pagination is given**, though it is above
the greatest limit. An offset, even zero, makes it checked and complained about. -/
theorem validate_uncheckedDefault :
    Options.resolve .standard none (.limits 50 10) =
      .ok { Options.standard false with defaultLimit := .int 50, maxLimit := .int 10 } ∧
    (∃ r, ((entries []).validate .standard none (.limits 50 10)).outcome = .ok r ∧
      r.size = .int 50 ∧
      ¬Options.Within { Options.standard false with defaultLimit := .int 50, maxLimit := .int 10 }
        r.size) ∧
    ((entries [(.text "offset", .int 0)]).validate .standard none (.limits 50 10)).outcome =
      .error (.invalidParameters [("limit", ["must be less than or equal to 10"])] none) := by
  refine ⟨Options.resolve_limits 50 10, ?_, ?_⟩
  · have hvalid : ((entries []).validate .standard none (.limits 50 10)).outcome =
        .ok ⟨[], none, none, { Pagination.empty with limit := .int 50 }, none⟩ := by
      rw [validate_of_resolve (Options.resolve_limits 50 10)]
      rfl
    refine ⟨_, hvalid, rfl, fun hwithin => ?_⟩
    have hset : Value.int 10 ≠ .null := by simp
    have hle : Value.precedes true (.int 50) (.int 10) = .ok true :=
      hwithin.greatest.resolve_left hset
    rw [Value.precedes_int] at hle
    cases hle
  · rw [validate_of_resolve (Options.resolve_limits 50 10)]
    rfl

end Params

end Sieve
