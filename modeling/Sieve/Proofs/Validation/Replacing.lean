import Sieve.Proofs.Validation.Lenient
import Sieve.Proofs.Validation.Ordering

/-!
# What is refused where invalid parameters are replaced

Where invalid parameters are dropped or replaced, most parameters become a request. What is left to
refuse is what nothing can stand in for: parameters of two strategies, a strategy that options do not
admit, a number of rows without a default, and rows after or before a cursor without an ordering.

* `Validation.obstacles`: what nothing can stand in for;
* `Validation.answers_pagination`: the obstacles are all that is complained about;
* `Validation.Refused`: the errors that parameters are refused with;
* `Params.validate_replacing`: parameters become a request, or are refused with one of these errors.
-/

namespace Sieve

/-- Sizes, offsets and page numbers are numbers, where they are given. -/
structure Pagination.Numeric (p : Pagination) : Prop where
  limit : p.limit.IsNumeric
  offset : p.offset.IsNumeric
  page : p.page.IsNumeric
  pageSize : p.pageSize.IsNumeric
  first : p.first.IsNumeric
  last : p.last.IsNumeric

/-- Members of enumerations are taken by their values as numbers. Each such value is a number. -/
def Params.MembersNumeric (params : Params) : Prop :=
  ∀ es, params.toEntries = .ok es → ∀ v,
    ∀ name ∈ ["limit", "offset", "page", "page_size", "first", "last"],
      Value.lookup? name es = some (.member v) → ∃ l, v.HasLevel l

namespace Validation

open Checking

variable {schema : Option Schema} {o : Options}

/-! ### Strategies -/

/-- The complaint about rows after or before a cursor without an ordering. -/
def unordered (names : List String) : List (String × String) :=
  if names.isEmpty then [("order_by", "can't be blank")] else []

theorem answers_requireOrder (orderBy : Option (List String)) :
    Answers (fun _ => True) (unordered (orderBy.getD [])) (requireOrder orderBy) := by
  unfold requireOrder unordered
  split
  · exact answers_complain _ _
  · exact passes_pure _

/-- What nothing can stand in for among the parameters of a strategy, with the names to order by. -/
def strategyObstacles (o : Options) (names : List String) (p : Pagination) :
    Strategy → List (String × String)
  | .first => missing o "first" p.first ++ unordered names
  | .last => missing o "last" p.last ++ unordered names
  | .page => missing o "page_size" p.pageSize
  | .offset => []

/-- What nothing can stand in for: the strategy in use, or the default one, is not admitted, or lacks a
number of rows or an ordering. -/
def obstacles (o : Options) (names : List String) (p : Pagination) (used : Option Strategy) :
    List (String × String) :=
  match if used.isSome then (p, used) else standIn o p with
  | (_, none) => []
  | (p, some s) => if admits o p s then strategyObstacles o names p s else [notAdmitted s]

theorem answers_parameters (hreplaces : o.replaces = true) (ho : o.NumericLimits)
    {orderBy : Option (List String)} {p : Pagination} (hp : p.Numeric) (s : Strategy) :
    Answers (fun _ => True) (strategyObstacles o (orderBy.getD []) p s)
      (parameters schema o orderBy p (some s)) := by
  cases s with
  | first =>
    rw [strategyObstacles, ← List.append_nil (unordered _)]
    exact (answers_size hreplaces ho "first" true hp.first).bind fun _ _ =>
      (answers_requireOrder orderBy).bind fun _ _ =>
        (passes_token hreplaces _ _ _).bind fun _ => passes_pure _
  | last =>
    rw [strategyObstacles, ← List.append_nil (unordered _)]
    exact (answers_size hreplaces ho "last" true hp.last).bind fun _ _ =>
      (answers_requireOrder orderBy).bind fun _ _ =>
        (passes_token hreplaces _ _ _).bind fun _ => passes_pure _
  | page =>
    rw [strategyObstacles, ← List.append_nil (missing _ _ _)]
    exact (answers_size hreplaces ho "page_size" true hp.pageSize).bind fun _ _ =>
      (passes_atLeast hreplaces _ _ _ hp.page true).bind fun _ => passes_pure _
  | offset =>
    exact Passes.bind (answers_size hreplaces ho "limit" false hp.limit) fun _ =>
      (passes_atLeast hreplaces _ _ _ hp.offset false).bind fun _ => passes_pure _

theorem numeric_sized {p : Pagination} (hp : p.Numeric) {n : Value} (hn : n.IsNumeric)
    (s : Strategy) : (sized p n s).Numeric := by
  cases s with
  | first => exact { hp with first := hn }
  | last => exact { hp with last := hn }
  | page => exact { hp with pageSize := hn }
  | offset => exact { hp with limit := hn }

theorem numeric_standIn (ho : o.NumericLimits) {p : Pagination} (hp : p.Numeric) :
    (standIn o p).1.Numeric := by
  unfold standIn
  split
  · exact hp
  · split
    · exact hp
    · exact numeric_sized hp ho.default _

/-- **The obstacles are all that is complained about.** -/
theorem answers_pagination (hreplaces : o.replaces = true) (ho : o.NumericLimits)
    {orderBy : Option (List String)} {p : Pagination} (hp : p.Numeric) (used : Option Strategy) :
    Answers (fun _ => True) (obstacles o (orderBy.getD []) p used)
      (pagination schema o orderBy p used) := by
  have hchosen : (if used.isSome then (p, used) else standIn o p).1.Numeric := by
    split
    · exact hp
    · exact numeric_standIn ho hp
  unfold pagination obstacles
  generalize (if used.isSome then (p, used) else standIn o p) = chosen at hchosen ⊢
  obtain ⟨p, s⟩ := chosen
  cases s with
  | none => exact passes_pure _
  | some s =>
    dsimp only
    split
    · exact answers_parameters hreplaces ho hchosen s
    · exact (answers_complain _ _).bind fun _ _ => passes_pure _

/-! ### Requests -/

/-- Sizes, offsets and page numbers are integers that were read, or values of members of
enumerations. -/
theorem numeric_parsed {es : List (Value × Value)} (hmembers : (Params.entries es).MembersNumeric) :
    (parsed o es).pagination.Numeric := by
  have hnumber : ∀ name ∈ ["limit", "offset", "page", "page_size", "first", "last"],
      (Scalars.parameter (admitted o es) name Intake.integer).number.IsNumeric := fun name hname =>
    number_admitted (by fin_cases hname <;> decide) (.inl rfl)
      (fun i => .inr ⟨_, Value.hasLevel_int i⟩) fun v hv => .inr (hmembers es rfl v name hname hv)
  exact ⟨hnumber _ (by simp), hnumber _ (by simp), hnumber _ (by simp), hnumber _ (by simp),
    hnumber _ (by simp), hnumber _ (by simp)⟩

/-- The errors that parameters are refused with where invalid ones are replaced. -/
inductive Refused (schema : Option Schema) (o : Options) (es : List (Value × Value)) :
    Error → Prop
  /-- Parameters of two strategies are given. -/
  | conflicting {p : Pagination} {s t : Strategy} {rest : List Strategy}
      (hp : p = (parsed o es).pagination) (h : p.used = s :: t :: rest) :
      Refused schema o es
        (.strategyConflict (p.givenParameter s) ((s :: t :: rest).map Strategy.name))
  /-- The ordering that stands in for a missing one cannot be read off the options. -/
  | unreadable {used : Option Strategy} {e : Error}
      (hused : conflict (parsed o es).pagination = .ok used)
      (h : o.orderingOf (parsed o es) = .error e) : Refused schema o es e
  /-- There is something that nothing can stand in for. -/
  | obstructed {used : Option Strategy} {q : OrderParams} {cs : List (String × String)}
      (hused : conflict (parsed o es).pagination = .ok used)
      (horder : o.orderingOf (parsed o es) = .ok q)
      (hcs : cs = obstacles o (sortableNames schema (q.1.getD [])) (parsed o es).pagination used)
      (h : cs ≠ []) :
      Refused schema o es (.invalidParameters (Messages.addEach [] cs) (schema.map (·.name)))

theorem conflict_error_iff {p : Pagination} {e : Error} : conflict p = .error e ↔
    ∃ s t rest, p.used = s :: t :: rest ∧
      e = .strategyConflict (p.givenParameter s) ((s :: t :: rest).map Strategy.name) := by
  unfold conflict
  rcases p.used with _ | ⟨s, _ | ⟨t, rest⟩⟩
  · simp
  · simp
  · simp [eq_comm]

variable {es : List (Value × Value)}

theorem fails_request_of_conflict (hreplaces : o.replaces = true) {e : Error}
    (h : conflict (parsed o es).pagination = .error e) : Fails e (request schema o es) := by
  rw [request_eq]
  refine (answers_scalars hreplaces _).fails_bind ?_
  rintro given rfl
  exact fails_lift_bind h

theorem fails_request_of_order (hreplaces : o.replaces = true) {used : Option Strategy} {e : Error}
    (hused : conflict (parsed o es).pagination = .ok used)
    (h : o.orderingOf (parsed o es) = .error e) : Fails e (request schema o es) := by
  rw [request_eq]
  refine (answers_scalars hreplaces _).fails_bind ?_
  rintro given rfl
  refine (answers_lift hused).fails_bind fun _ _ => ?_
  exact Fails.bind (fails_lift_bind h)

/-- The check of all parameters complains about the obstacles, and about nothing else. -/
theorem answers_request (hreplaces : o.replaces = true) (ho : o.NumericLimits)
    (hmembers : (Params.entries es).MembersNumeric)
    (hfilters : o.filters = true → ((Value.lookup? "filters" es).getD .null).DraftsReadable)
    {used : Option Strategy} (hused : conflict (parsed o es).pagination = .ok used)
    {q : OrderParams} (horder : o.orderingOf (parsed o es) = .ok q) :
    Answers (fun _ => True)
      (obstacles o (sortableNames schema (q.1.getD [])) (parsed o es).pagination used)
      (request schema o es) := by
  have hadmitted : o.filters = true →
      ((Value.lookup? "filters" (admitted o es)).getD .null).DraftsReadable := by
    rwa [lookup?_admitted (by decide) (by decide)]
  rw [request_eq]
  refine (answers_scalars hreplaces _).pass ?_
  rintro given rfl
  refine answers_lift_bind hused ?_
  refine (answers_order hreplaces horder).pass fun r hr => ?_
  refine (passes_givenFilters hreplaces hadmitted).bind fun fs => ?_
  rw [← hr, ← List.append_nil (obstacles _ _ _ _)]
  exact (answers_pagination hreplaces ho (numeric_parsed hmembers) used).bind fun _ _ =>
    passes_pure _

end Validation

namespace Params

open Checking Validation

variable {params : Params} {schema : Option Schema} {o : Options} {es : List (Value × Value)}

theorem validateWith_error_of_fails {e : Error} (hes : params.toEntries = .ok es)
    (h : Fails e (Validation.request schema o es)) :
    (params.validateWith schema o).outcome = .error e := by
  rw [validateWith, hes, Traced.bind_outcome, Traced.lift_outcome, Outcome.ok_bind,
    Traced.bind_outcome, h]
  rfl

/-- Parameters become a request if there is nothing to complain about, and are refused with all the
complaints otherwise. -/
theorem validateWith_of_answers {cs : List (String × String)} (hes : params.toEntries = .ok es)
    (h : Answers (fun _ => True) cs (Validation.request schema o es)) :
    if cs = [] then ∃ r, (params.validateWith schema o).outcome = .ok r
    else (params.validateWith schema o).outcome =
      .error (.invalidParameters (Messages.addEach [] cs) (schema.map (·.name))) := by
  obtain ⟨r, hr, _⟩ := h []
  have houtcome : (params.validateWith schema o).outcome =
      (if (Messages.addEach [] cs).isEmpty then pure r
        else Traced.fail (.invalidParameters (Messages.addEach [] cs)
          (schema.map (·.name)))).outcome := by
    rw [validateWith, hes, Traced.bind_outcome, Traced.lift_outcome, Outcome.ok_bind,
      Traced.bind_outcome, hr]
    rfl
  rw [houtcome]
  split
  · next hcs =>
    subst hcs
    exact ⟨r, rfl⟩
  · next hcs =>
    rw [if_neg (mt List.isEmpty_iff.1 (Messages.addEach_ne_nil _ hcs))]
    rfl

theorem validateWith_replacing (hes : params.toEntries = .ok es) (hreplaces : o.replaces = true)
    (ho : o.NumericLimits) (hmembers : params.MembersNumeric)
    (hfilters : o.filters = true → ((Value.lookup? "filters" es).getD .null).DraftsReadable) :
    (∃ r, (params.validateWith schema o).outcome = .ok r) ∧ (∀ e, ¬Refused schema o es e) ∨
      ∃ e, Refused schema o es e ∧ (params.validateWith schema o).outcome = .error e := by
  have hmembers' : (Params.entries es).MembersNumeric := by
    rintro es' ⟨⟩
    exact hmembers es hes
  cases hused : conflict (parsed o es).pagination with
  | error e =>
    obtain ⟨s, t, rest, hstrategies, rfl⟩ := conflict_error_iff.1 hused
    exact .inr ⟨_, .conflicting rfl hstrategies,
      validateWith_error_of_fails hes (fails_request_of_conflict hreplaces hused)⟩
  | ok used =>
    cases horder : o.orderingOf (parsed o es) with
    | error e =>
      exact .inr ⟨e, .unreadable hused horder,
        validateWith_error_of_fails hes (fails_request_of_order hreplaces hused horder)⟩
    | ok q =>
      have hanswers : Answers (fun _ => True)
          (obstacles o (sortableNames schema (q.1.getD [])) (parsed o es).pagination used)
          (Validation.request schema o es) :=
        answers_request hreplaces ho hmembers' hfilters hused horder
      have houtcome := validateWith_of_answers hes hanswers
      split at houtcome
      · next hnone =>
        refine .inl ⟨houtcome, fun e he => ?_⟩
        cases he with
        | conflicting hp h =>
          subst hp
          rw [conflict_error_iff.2 ⟨_, _, _, h, rfl⟩] at hused
          cases hused
        | unreadable hused' h =>
          rw [horder] at h
          cases h
        | obstructed hused' horder' hcs h =>
          rw [hused] at hused'
          rw [horder] at horder'
          cases hused'
          cases horder'
          exact h (hcs.trans hnone)
      · next hsome => exact .inr ⟨_, .obstructed hused horder rfl hsome, houtcome⟩

/-- **Where invalid parameters are replaced, parameters become a request, or they are refused for what
nothing can stand in for.** -/
theorem validate_replacing {global : Properties} {call : Overrides}
    (hresolve : Options.resolve global schema call = .ok o) (hreplaces : o.replaces = true)
    (ho : o.NumericLimits) (hes : params.toEntries = .ok es) (hmembers : params.MembersNumeric)
    (hfilters : o.filters = true → ((Value.lookup? "filters" es).getD .null).DraftsReadable) :
    (∃ r, (params.validate global schema call).outcome = .ok r) ∧ (∀ e, ¬Refused schema o es e) ∨
      ∃ e, Refused schema o es e ∧ (params.validate global schema call).outcome = .error e := by
  rw [validate_of_resolve hresolve]
  exact validateWith_replacing hes hreplaces ho hmembers hfilters

theorem numericLimits_standard (replaceInvalid : Bool) :
    (Options.standard replaceInvalid).NumericLimits :=
  ⟨.inl rfl, .inl rfl⟩

/-- Parameters with hardly anything valid among them: a limit that is no number, an offset below zero,
and filters without a field, of an unknown kind, or one alone in a group. -/
def jumble : List (Value × Value) :=
  [(.text "limit", .text "ten"), (.text "offset", .int (-3)), (.text "order_by", .int 5),
    (.text "filters", .list [.map [],
      .map [(.text "type", .text "xor"), (.text "filters", .list [.null])],
      .map [(.text "filters", .list [.map [(.text "field", .text "a"), (.text "value", .int 1)]])]])]

theorem draftsReadable_jumble :
    ((Value.lookup? "filters" jumble).getD .null).DraftsReadable := by
  have hdrafts : ((Value.lookup? "filters" jumble).getD .null).drafts =
      .ok [.condition .null .null .null, .group (.text "xor") [.unreadable],
        .group .null [.condition (.text "a") .null (.int 1)]] := rfl
  refine ⟨by simp [hdrafts], fun ds hds d hd => ?_⟩
  rw [hdrafts] at hds
  cases hds
  simp only [List.mem_cons, List.not_mem_nil, or_false] at hd
  rcases hd with rfl | rfl | rfl
  · exact .condition rfl
  · exact .unknown _ (by simp [groupKind?, Value.truthy])
  · refine .group fun d hd => ?_
    rw [List.mem_singleton.1 hd]
    exact .condition (named_text "a")

/-- What is left of them is a request for all rows. -/
theorem validate_replacing_jumble :
    (Options.standard true).replaces = true ∧ (Options.standard true).NumericLimits ∧
    (entries jumble).MembersNumeric ∧
    ((Value.lookup? "filters" jumble).getD .null).DraftsReadable ∧
    ∃ r, ((entries jumble).validate .standard none
      { Overrides.none with replaceInvalid := .bool true }).outcome = .ok r := by
  have hmembers : (entries jumble).MembersNumeric := by
    rintro es ⟨⟩ v name hname h
    fin_cases hname <;> simp [jumble, Value.lookup?] at h
  refine ⟨rfl, numericLimits_standard true, hmembers, draftsReadable_jumble, ?_⟩
  rcases validate_replacing (Options.resolve_standard true) rfl (numericLimits_standard true) rfl
    hmembers fun _ => draftsReadable_jumble with ⟨hrequest, _⟩ | ⟨e, he, _⟩
  · exact hrequest
  · -- An offset alone is in no one's way.
    cases he with
    | conflicting hp h =>
      subst hp
      cases h
    | unreadable _ h => cases h
    | obstructed hused horder hcs h =>
      cases hused
      cases horder
      exact absurd hcs h

/-- **Some parameters are refused where invalid ones are replaced**, though they are of one strategy or
none: a filter that is no mapping is not dropped, and there is no default for the size of a page. -/
theorem validate_unreplaced :
    Options.resolve .standard none { Overrides.none with replaceInvalid := .bool true } =
      .ok (Options.standard true) ∧ (Options.standard true).replaces = true ∧
    ((entries [(.text "filters", .list [.int 5])]).validate .standard none
      { Overrides.none with replaceInvalid := .bool true }).outcome =
        .error (.invalidParameters [("filters.0", ["is invalid"])] none) ∧
    ((entries [(.text "page", .int 2)]).validate .standard none
      { Overrides.none with replaceInvalid := .bool true }).outcome =
        .error (.invalidParameters [("page_size", ["can't be blank"])] none) := by
  refine ⟨Options.resolve_standard true, rfl, ?_, ?_⟩ <;>
    rw [validate_of_resolve (Options.resolve_standard true)] <;> rfl

end Params

end Sieve
