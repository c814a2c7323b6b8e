import Sieve.Proofs.Validation.Settled

/-!
# Parameters that are continued by a token

Who pages through a result starts without a token, and then gives the same parameters again with the
token of the page before them. Where the parameters were valid, the token is all that is left to check.

* `Params.Untokened`: parameters without a token for a strategy;
* `Validation.Starts`, `Validation.pagination_starts`: what pagination without a token comes to;
* `Params.validateWith_continued`: what becomes of the parameters with any token beside them.
-/

namespace Sieve

/-- There is no token for the strategy among the parameters, or it is null. -/
def Params.Untokened (s : Strategy) (es : List (Value × Value)) : Prop :=
  (Value.lookup? s.parameters.2 es).getD .null = .null

/-! ### Reading -/

namespace Scalars

variable {s : Strategy} {es : List (Value × Value)}

/-- A parameter that is null is read like one that is not given. -/
theorem parameter_absent {α : Type} {name : String} (h : (Value.lookup? name es).getD .null = .null)
    (f : String → Value → Intake.Outcome α) : parameter es name f = ⟨none, []⟩ := by
  cases hv : Value.lookup? name es with
  | none => simp [parameter, hv]
  | some v =>
    rw [hv, Option.getD_some] at h
    simp [parameter, hv, h]

/-- No token is read where none is given. -/
theorem read_untokened (hs : s.byCursor = true) (h : Params.Untokened s es) :
    ((read es).1.pagination.parameters s).2 = .null := by
  have habsent : parameter es s.parameters.2 Intake.text = ⟨none, []⟩ := parameter_absent h _
  cases s with
  | first | last => exact congrArg Reading.text habsent
  | page | offset => cases hs

theorem read_withToken_null (hs : s.byCursor = true) (h : Params.Untokened s es) :
    read (Params.withToken s .null es) = read es := by
  have habsent : parameter es s.parameters.2 Intake.text = ⟨none, []⟩ := parameter_absent h _
  cases s with
  | first | last =>
    simp only [Strategy.parameters] at habsent
    simp only [read, Params.withToken, Strategy.parameters, parameter_null, parameter_skip, ne_eq,
      String.reduceEq, not_false_eq_true, habsent]
  | page | offset => cases hs

end Scalars

/-! ### Pagination -/

namespace Validation

open Checking

variable {schema : Option Schema} {o : Options} {s : Strategy} {es : List (Value × Value)}

theorem untokened_admitted (h : Params.Untokened s es) : Params.Untokened s (admitted o es) := by
  have hkey : s.parameters.2 ≠ "order_by" ∧ s.parameters.2 ≠ "order_directions" := by
    cases s <;> decide
  rwa [Params.Untokened, lookup?_admitted hkey.1 hkey.2]

theorem only_alone (a b : Value) : Only (alone s a b) s := by
  intro t ht
  by_contra hne
  rw [Pagination.uses, parameters_alone, if_neg hne] at ht
  cases ht

/-- The strategy that is found is one of which some parameter is given. -/
theorem Only.eq_of_strategy? {p : Pagination} {t : Strategy} (h : Only p s)
    (ht : p.strategy? = some t) : t = s :=
  h t (List.find?_some ht)

/-- The request for rows after or before a cursor, of which there is none yet: its pagination is that of
one strategy, which is admitted, and its number of rows was checked. -/
structure Starts (o : Options) (s : Strategy) (names : List String) (p q : Pagination)
    (c : Option Cursor) (n : Value) : Prop where
  only : Only p s
  admitted : Admitted o s
  ordered : names ≠ []
  uncursored : c = none
  pagination : q = alone s n .null
  size : Clean (Validation.size o s.parameters.1 true (p.parameters s).1) n

/-- What was checked for a strategy is pagination of that strategy. -/
theorem only_parameters {orderBy : Option (List String)} {p q : Pagination} {c : Option Cursor}
    (hp : Only p s) (h : Clean (parameters schema o orderBy p (some s)) (q, c)) : Only q s := by
  rw [hp.eq_alone] at h
  cases s with
  | first | last =>
    obtain ⟨n, t, rfl, _⟩ := clean_cursored rfl h
    exact only_alone n t
  | page =>
    obtain ⟨page, n, rfl, _⟩ := clean_paged h
    exact only_alone page n
  | offset =>
    obtain ⟨limit, offset, rfl, _⟩ := clean_skipping h
    exact only_alone limit offset

theorem parameters_starts {orderBy : Option (List String)} {a : Value} {q : Pagination}
    {c : Option Cursor} (hs : s.byCursor = true) (hadmits : admits o (alone s a .null) s = true)
    (h : Clean (parameters schema o orderBy (alone s a .null) (some s)) (q, c)) :
    ∃ n, Starts o s (orderBy.getD []) (alone s a .null) q c n := by
  obtain ⟨n, t, hq, hn, hnames, htoken⟩ := clean_cursored hs h
  cases (show Clean (pure (.null, none)) (t, c) from htoken)
  have hne : s ≠ .offset := by
    rintro rfl
    cases hs
  refine ⟨n, only_alone _ _, admitted_of_ne hadmits hne, hnames, rfl, hq, ?_⟩
  rwa [parameters_alone, if_pos rfl]

theorem pagination_starts {orderBy : Option (List String)} {p q : Pagination} {c : Option Cursor}
    {used : Option Strategy} (hs : s.byCursor = true) (hused : conflict p = .ok used)
    (h : Clean (pagination schema o orderBy p used) (q, c)) (htoken : (p.parameters s).2 = .null)
    (hq : q.strategy? = some s) : ∃ n, Starts o s (orderBy.getD []) p q c n := by
  cases pagination_routes hused h with
  | given _ honly hadmits h =>
    cases (only_parameters honly h).eq_of_strategy? hq
    have hform := honly.eq_alone
    rw [htoken] at hform
    rw [hform] at h hadmits ⊢
    exact parameters_starts hs hadmits h
  | standIn hempty _ _ hadmits h =>
    cases (only_parameters (only_sized _) h).eq_of_strategy? hq
    have hform : sized .empty o.defaultLimit s = alone s o.defaultLimit .null := by
      cases s <;> first | rfl | cases hs
    rw [hform] at h hadmits
    obtain ⟨n, hstarts⟩ := parameters_starts hs hadmits h
    have hsize := hstarts.size
    rw [parameters_alone, if_pos rfl, size_default] at hsize
    subst hempty
    have honly : Only .empty s := fun t ht => by cases t <;> cases ht
    have hnull : (Pagination.empty.parameters s).1 = .null := by cases s <;> rfl
    exact ⟨n, honly, hstarts.admitted, hstarts.ordered, hstarts.uncursored, hstarts.pagination,
      by rwa [hnull]⟩
  | limit _ _ hq' _ =>
    rw [hq'] at hq
    cases (only_alone _ _).eq_of_strategy? hq
    cases hs

/-! ### All parameters -/

/-- Beside a token everything is checked as without it, and the token at last. -/
theorem request_continued {r : Request} (hs : s.byCursor = true) (hes : Params.Untokened s es)
    (h : Clean (request schema o es) r) (hr : r.strategy? = some s) :
    r.orderNames ≠ [] ∧ r.cursor = none ∧ ∃ n, r.pagination = alone s n .null ∧ ∀ t : String,
      (request schema o (Params.withToken s (.text t) es) []).outcome =
        (token schema o s.parameters.2 r.orderBy (.text t) []).outcome >>= fun p =>
          .ok ({ r with pagination := alone s n p.1.1, cursor := p.1.2 }, p.2) := by
  obtain ⟨given, used, hscalars, hused, horder, hfilters, hpagination⟩ := clean_request_iff.1 h
  have hes' := untokened_admitted (o := o) hes
  have hread := scalars_read hscalars
  have htoken : (given.pagination.parameters s).2 = .null :=
    hread ▸ Scalars.read_untokened hs hes'
  obtain ⟨n, hstarts⟩ := pagination_starts hs hused hpagination htoken hr
  refine ⟨hstarts.ordered, hstarts.uncursored, n, hstarts.pagination, fun t => ?_⟩
  have hgiven : Scalars.read (Params.withToken s .null (admitted o es)) =
      (given, (Scalars.read (admitted o es)).2) := by
    rw [Scalars.read_withToken_null hs hes', hread]
  have hscalars' : (scalars o (Params.withToken s (.text t) (admitted o es)) []).outcome =
      .ok ({ given with
        pagination := alone s (given.pagination.parameters s).1 (.text t) }, []) := by
    rw [scalars_eq] at hscalars ⊢
    rw [Scalars.read_withToken hs hgiven hstarts.only]
    obtain ⟨_, hdrop, _⟩ := (clean_bind_iff fun _ => adds_pure _).1 hscalars
    rw [bind_of_ok hdrop]
    rfl
  have hused' : conflict (alone s (given.pagination.parameters s).1 (.text t)) = .ok (some s) :=
    conflict_alone (.inr nofun)
  rw [request_eq, admitted_withToken, rest_withToken, bind_of_ok hscalars', hused']
  refine (bind_of_ok horder).trans ?_
  rw [rest, bind_of_ok hfilters, bind_run, Traced.bind_outcome,
    pagination_cursored hs hstarts.admitted hstarts.ordered, hstarts.size]
  show ((token schema o s.parameters.2 r.orderBy (.text t) []).outcome >>= _) >>= _ = _
  cases (token schema o s.parameters.2 r.orderBy (.text t) []).outcome with
  | error e => rfl
  | ok p => rfl

end Validation

namespace Params

open Validation

variable {schema : Option Schema} {o : Options} {s : Strategy} {es : List (Value × Value)}
  {params : Params} {r : Request}

/-- **Valid parameters are continued by a token.** With a token beside them they become the same request
with its cursor, or the token alone is what is wrong. -/
theorem validateWith_continued (hs : s.byCursor = true) (hes : params.toEntries = .ok es)
    (huntokened : Untokened s es) (h : (params.validateWith schema o).outcome = .ok r)
    (hr : r.strategy? = some s) :
    r.cursor = none ∧ ∃ n, r.pagination = alone s n .null ∧
      ∀ (token : String) (continued : Params), continued.Gives s token es →
        Handled schema o s r.orderNames r n [] token (continued.validateWith schema o).outcome := by
  obtain ⟨es', hes', hclean⟩ := validateWith_eq_ok_iff.1 h
  cases hes.symm.trans hes'
  obtain ⟨hnames, hcursor, n, hpagination, hrequest⟩ :=
    request_continued hs huntokened hclean hr
  refine ⟨hcursor, n, hpagination, fun token continued hgives => ?_⟩
  obtain ⟨fs, hfs, hlookup⟩ := hgives
  refine handled hpagination hcursor hnames ?_
  rw [validateWith_conclude hfs, request_congr hlookup, hrequest]
  cases (Validation.token schema o s.parameters.2 r.orderBy (.text token) []).outcome with
  | error e => rfl
  | ok p => rfl

end Params

end Sieve
