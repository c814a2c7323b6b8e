import Sieve.Proofs.Filter.Reading
import Sieve.Proofs.Validation.Strict

/-!
# No filter is lost

Where invalid parameters are rejected, the filters of a valid request say exactly what was given: every
filter of every group is there, in its place. If anything about a filter is wrong, at any depth, the
parameters are rejected.

* `Value.Says`: a filter says what data says, with all the children of its groups;
* `Value.Flawed`: data that says no filter, or has such data among the children of a group;
* `Value.EndsCheck`: lists of filters that are not even checked to their end;
* `Params.validateWith_lossless`: valid requests have the filters that were given, and flawed filters
  are refused;
* `Params.flawed_behind_default_order`: a refusal that has nothing to do with the filters may come
  first.
-/

namespace Sieve

namespace Value

variable {schema : Option Schema}

mutual

/-- The filter says what the value says. A value with an entry for filters is a group of them, any
other value with entries is a condition. -/
inductive Says (schema : Option Schema) : Value → Filter → Prop
  | condition {v : Value} {get : String → Option Value} {c : Condition}
      (hv : v.entriesOf? = some get) (hleaf : get "filters" = none)
      (h : c.IsOf schema (entry get "field") (entry get "op") (entry get "value")) :
      Says schema v (.condition c)
  | group {v children : Value} {get : String → Option Value} {xs : List Value} {kind : GroupKind}
      {fs : List Filter} (hv : v.entriesOf? = some get) (hgroup : get "filters" = some children)
      (hlist : children.Listed xs) (hkind : kind.IsOf (entry get "type"))
      (heach : SayEach schema xs fs) (henough : Validation.enough fs = true) :
      Says schema v (.group kind fs)

/-- The filters say what the values say, one by one. -/
inductive SayEach (schema : Option Schema) : List Value → List Filter → Prop
  | nil : SayEach schema [] []
  | cons {v : Value} {f : Filter} {vs : List Value} {fs : List Filter} (h : Says schema v f)
      (hrest : SayEach schema vs fs) : SayEach schema (v :: vs) (f :: fs)

end

theorem sayEach_iff {vs : List Value} {fs : List Filter} :
    SayEach schema vs fs ↔ List.Forall₂ (Says schema) vs fs := by
  constructor
  · intro h
    induction vs generalizing fs with
    | nil => cases h; exact .nil
    | cons v vs ih =>
      cases h with
      | cons h hrest => exact .cons h (ih hrest)
  · intro h
    induction h with
    | nil => exact .nil
    | cons h _ ih => exact .cons h ih

/-- The filters say what the value of their parameter says; null says none. -/
def ForestSays (schema : Option Schema) (v : Value) (fs : List Filter) : Prop :=
  v = .null ∧ fs = [] ∨ ∃ xs, v.Listed xs ∧ List.Forall₂ (Says schema) xs fs

/-! ### Filters say what was given -/

/-- The drafts of a group are those of its children; without a list of them it has none. -/
theorem draft_eq_group {v type : Value} {ds : List Draft} (h : v.draft = .group type ds) :
    ∃ get children, v.entriesOf? = some get ∧ get "filters" = some children ∧
      type = entry get "type" ∧
      (ds = [] ∨ ∃ xs, children.Listed xs ∧ ds = xs.map draft) := by
  obtain ⟨get, children, hv, hget, hparts⟩ := exists_children h (by simp)
  obtain ⟨htype, hds⟩ := ofParts_eq_group hparts
  exact ⟨get, children, hv, hget, htype, hds.imp_right drafts_ok_iff.1⟩

mutual

/-- A filter that a draft becomes, with no child left out, says what the value of the draft says. -/
theorem says_of_becomes {d : Draft} {f : Filter} (h : d.Becomes schema false f) :
    ∀ v : Value, v.draft = d → Says schema v f := by
  match h with
  | .condition hc =>
    intro v hv
    obtain ⟨get, hentries, hleaf, rfl, rfl, rfl⟩ := draft_eq_condition hv
    exact .condition hentries hleaf hc
  | .group hkind hfs henough =>
    intro v hv
    obtain ⟨get, children, hentries, hgroup, rfl, rfl | ⟨xs, hlist, rfl⟩⟩ := draft_eq_group hv
    · -- Without children there are not enough filters for a group.
      cases hfs
      cases henough
    · exact .group hentries hgroup hlist hkind (sayEach_of_eachBecome hfs xs rfl) henough

theorem sayEach_of_eachBecome {ds : List Draft} {fs : List Filter}
    (h : Draft.EachBecome schema false ds fs) :
    ∀ xs : List Value, ds = xs.map draft → SayEach schema xs fs := by
  match h with
  | .nil =>
    intro xs hxs
    cases xs with
    | nil => exact .nil
    | cons x xs => cases hxs
  | .keep hf hfs =>
    intro xs hxs
    cases xs with
    | nil => cases hxs
    | cons x xs =>
      obtain ⟨hd, hds⟩ := List.cons.inj hxs
      exact .cons (says_of_becomes hf x hd.symm) (sayEach_of_eachBecome hfs xs hds)
  | .skip hskips _ => cases hskips

end

/-! ### Flaws -/

/-- What can be wrong with the field, the operator and the value of a condition. -/
inductive ConditionFlaw (schema : Option Schema) (field op value : Value) : Prop
  | blank (h : field.truthy = false)
  | unfilterable {s : Schema} (hs : schema = some s)
      (h : field.isBroken = true ∨ s.isFilterable field.render = false)
  | unknownField {e : Error} (h : resolveField schema field.render = .error e)
  | unknownOperator (h : ∀ operator : Operator, ¬operator.IsOf op)
  | unsupported {f : Field} {operator : Operator} (hf : resolveField schema field.render = .ok f)
      (hop : operator.IsOf op) (h : operator ∉ f.operators)
  | uncoercible {f : Field} {operator : Operator} {e : Error}
      (hf : resolveField schema field.render = .ok f) (hop : operator.IsOf op)
      (h : operator.coerce f.type value = .error e)

/-- The value has an entry for filters. -/
def IsGroup (v : Value) : Prop :=
  ∃ get children, v.entriesOf? = some get ∧ get "filters" = some children

/-- The value is no filter, or there is such a value among the children of a group, at any depth. -/
inductive Flawed (schema : Option Schema) : Value → Prop
  | unreadable {v : Value} (h : v.entriesOf? = none) : Flawed schema v
  | condition {v : Value} {get : String → Option Value} (hv : v.entriesOf? = some get)
      (hleaf : get "filters" = none)
      (h : ConditionFlaw schema (entry get "field") (entry get "op") (entry get "value")) :
      Flawed schema v
  | type {v children : Value} {get : String → Option Value} (hv : v.entriesOf? = some get)
      (hgroup : get "filters" = some children)
      (h : ∀ kind : GroupKind, ¬kind.IsOf (entry get "type")) : Flawed schema v
  | unlisted {v children : Value} {get : String → Option Value} (hv : v.entriesOf? = some get)
      (hgroup : get "filters" = some children) (h : ∀ xs, ¬children.Listed xs) : Flawed schema v
  | tooFew {v children : Value} {get : String → Option Value} {xs : List Value}
      (hv : v.entriesOf? = some get) (hgroup : get "filters" = some children)
      (hlist : children.Listed xs) (hlength : xs.length < 2) (hnested : ∀ x ∈ xs, ¬x.IsGroup) :
      Flawed schema v
  | child {v children x : Value} {get : String → Option Value} {xs : List Value}
      (hv : v.entriesOf? = some get) (hgroup : get "filters" = some children)
      (hlist : children.Listed xs) (hx : x ∈ xs) (h : Flawed schema x) : Flawed schema v

theorem Operator.IsOf.unique {op : Value} {a b : Operator} (ha : a.IsOf op) (hb : b.IsOf op) :
    a = b := by
  rcases ha with ⟨rfl, rfl⟩ | rfl
  · rcases hb with ⟨_, rfl⟩ | hb
    · rfl
    · cases hb
  · rcases hb with ⟨hb, _⟩ | hb
    · cases hb
    · have hname : Operator.ofName? a.name = Operator.ofName? b.name :=
        congrArg Operator.ofName? (Value.text.inj hb)
      simpa using hname

/-- A condition in order has no flaw. -/
theorem ConditionFlaw.not_isOf {field op value : Value} {c : Condition}
    (hflaw : ConditionFlaw schema field op value) (h : c.IsOf schema field op value) : False := by
  obtain ⟨f, hf, hmem, hcoerce⟩ := h.coerced
  rw [h.named] at hf
  cases hflaw with
  | blank hblank => simp [h.given] at hblank
  | unfilterable hs hno =>
    obtain ⟨hwhole, hyes⟩ := h.filterable _ hs
    rw [h.named] at hyes
    rcases hno with hno | hno
    · cases hno.symm.trans hwhole
    · cases hno.symm.trans hyes
  | unknownField hunknown => cases hf.symm.trans hunknown
  | unknownOperator hop => exact hop _ h.operator
  | unsupported hf' hop hno =>
    cases hf.symm.trans hf'
    rw [Operator.IsOf.unique hop h.operator] at hno
    exact hno hmem
  | uncoercible hf' hop herror =>
    cases hf.symm.trans hf'
    rw [Operator.IsOf.unique hop h.operator] at herror
    cases herror.symm.trans hcoerce

theorem exists_says_of_mem {vs : List Value} {fs : List Filter} (h : SayEach schema vs fs)
    {v : Value} (hv : v ∈ vs) : ∃ f, Says schema v f := by
  induction vs generalizing fs with
  | nil => cases hv
  | cons w vs ih =>
    cases h with
    | cons hf hrest =>
      rcases List.mem_cons.1 hv with rfl | hv
      · exact ⟨_, hf⟩
      · exact ih hrest hv

theorem length_of_sayEach {vs : List Value} {fs : List Filter} (h : SayEach schema vs fs) :
    fs.length = vs.length :=
  (sayEach_iff.1 h).length_eq.symm

/-- Among filters that say what values say, groups are those of values with an entry for filters. -/
theorem exists_group_of_mem {vs : List Value} {fs : List Filter} (h : SayEach schema vs fs)
    {f : Filter} (hf : f ∈ fs) (hgroup : f.condition?.isNone = true) : ∃ v ∈ vs, v.IsGroup := by
  induction vs generalizing fs with
  | nil =>
    cases h
    cases hf
  | cons w vs ih =>
    cases h with
    | cons hw hrest =>
      rcases List.mem_cons.1 hf with rfl | hf
      · cases hw with
        | condition => cases hgroup
        | group hv hfilters => exact ⟨w, by simp, _, _, hv, hfilters⟩
      · obtain ⟨v, hv, hvg⟩ := ih hrest hf
        exact ⟨v, by simp [hv], hvg⟩

/-- **No filter says what flawed data says.** -/
theorem Flawed.not_says {v : Value} (hflaw : Flawed schema v) : ∀ f, ¬Says schema v f := by
  induction hflaw with
  | unreadable hv =>
    rintro f (⟨hv', _, _⟩ | ⟨hv', _, _, _, _, _⟩) <;> cases hv.symm.trans hv'
  | condition hv hleaf hflaw =>
    rintro f (⟨hv', _, hc⟩ | ⟨hv', hgroup, _, _, _, _⟩)
    · cases hv.symm.trans hv'
      exact hflaw.not_isOf hc
    · cases hv.symm.trans hv'
      cases hleaf.symm.trans hgroup
  | type hv hgroup htype =>
    rintro f (⟨hv', hleaf, _⟩ | ⟨hv', _, _, hkind, _, _⟩)
    · cases hv.symm.trans hv'
      cases hgroup.symm.trans hleaf
    · cases hv.symm.trans hv'
      exact htype _ hkind
  | unlisted hv hgroup hlist =>
    rintro f (⟨hv', hleaf, _⟩ | ⟨hv', hgroup', hlist', _, _, _⟩)
    · cases hv.symm.trans hv'
      cases hgroup.symm.trans hleaf
    · cases hv.symm.trans hv'
      cases hgroup.symm.trans hgroup'
      exact hlist _ hlist'
  | tooFew hv hgroup hlist hlength hnested =>
    rintro f (⟨hv', hleaf, _⟩ | ⟨hv', hgroup', hlist', _, heach, henough⟩)
    · cases hv.symm.trans hv'
      cases hgroup.symm.trans hleaf
    · cases hv.symm.trans hv'
      cases hgroup.symm.trans hgroup'
      cases hlist.unique hlist'
      rw [Validation.enough, Bool.or_eq_true, decide_eq_true_iff, List.any_eq_true] at henough
      rcases henough with htwo | ⟨g, hg, hnone⟩
      · rw [length_of_sayEach heach] at htwo
        omega
      · obtain ⟨x, hx, hxg⟩ := exists_group_of_mem heach hg hnone
        exact hnested x hx hxg
  | child hv hgroup hlist hx _ ih =>
    rintro f (⟨hv', hleaf, _⟩ | ⟨hv', hgroup', hlist', _, heach, _⟩)
    · cases hv.symm.trans hv'
      cases hgroup.symm.trans hleaf
    · cases hv.symm.trans hv'
      cases hgroup.symm.trans hgroup'
      cases hlist.unique hlist'
      obtain ⟨g, hg⟩ := exists_says_of_mem heach hx
      exact ih g hg

/-! ### Filters that end the check -/

/-- A list of filters that ends the check with an error: it has an index number beyond all integers, or a
field whose text cannot be written, or that is so of the children of a group, at any depth. -/
inductive EndsCheck : Value → Error → Prop
  | index {es : List (Value × Value)} {e : Value × Value} (he : e ∈ es)
      (h : wholePart e.1 = .error .overflow) : EndsCheck (map es) .overflow
  | field {v x : Value} {get : String → Option Value} {xs : List Value} (hlist : v.Listed xs)
      (hx : x ∈ xs) (hget : x.entriesOf? = some get) (hleaf : get "filters" = none)
      (h : (entry get "field").isWritable = false) : EndsCheck v .malformed
  | inside {v x children : Value} {get : String → Option Value} {xs : List Value} {e : Error}
      (hlist : v.Listed xs) (hx : x ∈ xs) (hget : x.entriesOf? = some get)
      (hgroup : get "filters" = some children) (h : EndsCheck children e) : EndsCheck v e

theorem endsCheck_of_drafts {v : Value} (h : v.drafts = .error .overflow) :
    EndsCheck v .overflow := by
  obtain ⟨es, rfl, e, he, hkey⟩ := exists_of_drafts_overflow h
  exact .index he hkey

/-- No such filter is reported as a fault of the parameters. -/
theorem EndsCheck.eq_or {v : Value} {e : Error} (h : v.EndsCheck e) :
    e = .overflow ∨ e = .malformed := by
  induction h with
  | index => exact .inl rfl
  | field => exact .inr rfl
  | inside _ _ _ _ _ ih => exact ih

end Value

/-- The draft of a filter that ends the check, or of a group with one, at any depth. -/
inductive Draft.EndsCheck : Draft → Error → Prop
  | unbounded (type : Value) : EndsCheck (.unbounded type) .overflow
  | unwritten {field op value : Value} (h : field.isWritable = false) :
      EndsCheck (.condition field op value) .malformed
  | child {type : Value} {ds : List Draft} {d : Draft} {e : Error} (hd : d ∈ ds)
      (h : EndsCheck d e) : EndsCheck (.group type ds) e

/-- A list with such a filter ends the check. -/
theorem Draft.EndsCheck.of_listed {d : Draft} {e : Error} (h : d.EndsCheck e) :
    ∀ {list v : Value} {xs : List Value}, list.Listed xs → v ∈ xs → v.draft = d →
      list.EndsCheck e := by
  induction h with
  | unbounded type =>
    intro list v xs hlist hv hd
    obtain ⟨get, children, hget, hgroup, hparts⟩ := Value.exists_children hd (by simp)
    exact .inside hlist hv hget hgroup
      (Value.endsCheck_of_drafts (Value.ofParts_eq_unbounded hparts))
  | unwritten h =>
    intro list v xs hlist hv hd
    obtain ⟨get, hget, hleaf, rfl, _, _⟩ := Value.draft_eq_condition hd
    exact .field hlist hv hget hleaf h
  | child hmem _ ih =>
    intro list v xs hlist hv hd
    obtain ⟨get, children, hget, hgroup, _, rfl | ⟨ys, hchildren, rfl⟩⟩ := Value.draft_eq_group hd
    · cases hmem
    · obtain ⟨y, hy, rfl⟩ := List.mem_map.1 hmem
      exact .inside hlist hv hget hgroup (ih hchildren hy rfl)

namespace Validation

open Checking

variable {schema : Option Schema} {o : Options}

/-! ### Failures -/

theorem failsOnly_reject {P : Error → Prop} (path : String) (messages : Messages) :
    FailsOnly P (reject o path messages) := by
  unfold reject
  split
  · exact failsOnly_bind (failsOnly_report _) fun _ => failsOnly_pure _
  · exact failsOnly_bind (failsOnly_complainAll _) fun _ => failsOnly_pure _

/-- The text of a field fails to be written only if it cannot be. -/
theorem named_fails {op value : Value} (field : Value) :
    Outcome.FailsOnly (Draft.condition field op value).EndsCheck (named field) := by
  unfold named
  split
  · next h =>
    have hboth : field.truthy = true ∧ field.isWritable = false := by simpa using h
    exact Outcome.failsOnly_error (.unwritten hboth.2)
  · exact Outcome.failsOnly_ok _

mutual

/-- The check of a filter fails at once only for what ends the check. -/
theorem failsOnly_filter (path : String) (d : Draft) :
    FailsOnly d.EndsCheck (filter schema o path d) := by
  match d with
  | .unreadable => exact failsOnly_bind (failsOnly_complain _ _) fun _ => failsOnly_pure _
  | .condition field op value =>
    unfold filter
    refine failsOnly_bind (failsOnly_lift (named_fails field)) fun _ => ?_
    split
    · exact failsOnly_pure _
    · exact failsOnly_reject _ _
  | .group type children =>
    unfold filter
    split
    · exact failsOnly_reject _ _
    · refine failsOnly_bind ((failsOnly_filterEach _ _ children).imp ?_) fun fs => ?_
      · rintro e ⟨d, hd, hends⟩
        exact .child hd hends
      · split
        · exact failsOnly_pure _
        · exact failsOnly_reject _ _
  | .unbounded type =>
    unfold filter
    split
    · exact failsOnly_reject _ _
    · exact failsOnly_fail (.unbounded type)

theorem failsOnly_filterEach (path : String) (place : Nat) (ds : List Draft) :
    FailsOnly (fun e => ∃ d ∈ ds, d.EndsCheck e) (filterEach schema o path place ds) := by
  match ds with
  | [] => exact failsOnly_pure _
  | d :: ds =>
    unfold filterEach
    refine failsOnly_bind ((failsOnly_filter _ d).imp ?_) fun _ =>
      failsOnly_bind ((failsOnly_filterEach _ _ ds).imp ?_) fun _ => failsOnly_pure _
    · exact fun e hends => ⟨d, by simp, hends⟩
    · rintro e ⟨d', hd', hends⟩
      exact ⟨d', by simp [hd'], hends⟩

end

/-- The check of filters fails at once only for what ends the check. -/
theorem failsOnly_filters (v : Value) : FailsOnly v.EndsCheck (filters schema o v) := by
  unfold filters
  split
  · exact failsOnly_pure _
  · split
    · next ds hds =>
      refine (failsOnly_filterEach _ _ ds).imp ?_
      rintro e ⟨d, hd, hends⟩
      obtain ⟨xs, hlist, rfl⟩ := Value.drafts_ok_iff.1 hds
      obtain ⟨x, hx, rfl⟩ := List.mem_map.1 hd
      exact hends.of_listed hlist hx rfl
    · next hds => exact failsOnly_fail (Value.endsCheck_of_drafts hds)
    · dsimp only
      split
      · exact failsOnly_bind (failsOnly_report _) fun _ => failsOnly_pure _
      · exact failsOnly_bind (failsOnly_complain _ _) fun _ => failsOnly_pure _

/-- In strict mode the filters of a request say what the given list says. -/
theorem filters_say (hstrict : o.replaces = false) {v : Value} {fs : List Filter}
    (h : Clean (filters schema o v) fs) : v.ForestSays schema fs := by
  have hbecome := filters_become h
  rw [hstrict] at hbecome
  rcases hbecome with ⟨rfl, hnull | hreplaces⟩ | ⟨ds, hds, hfs⟩
  · exact .inl ⟨hnull, rfl⟩
  · cases hreplaces
  · obtain ⟨xs, hlist, rfl⟩ := Value.drafts_ok_iff.1 hds
    exact .inr ⟨xs, hlist, Value.sayEach_iff.1 (Value.sayEach_of_eachBecome hfs xs rfl)⟩

end Validation

/-- The error is reported as a problem of the user's parameters. -/
def Error.IsValidation (e : Error) : Prop :=
  ∃ p, e.report = .problem p ∧ p.family.isValidation = true

namespace Params

open Checking Validation

variable {schema : Option Schema} {o : Options} {es : List (Value × Value)}

/-- The filters among parameters; null if there are none. -/
def forest (es : List (Value × Value)) : Value :=
  (Value.lookup? "filters" es).getD .null

/-- The parameters with null in place of their filters. -/
def withoutFilters (es : List (Value × Value)) : List (Value × Value) :=
  (.text "filters", .null) :: es

/-- Filters are admitted beside any ordering. -/
theorem forest_admitted : forest (admitted o es) = forest es := by
  rw [forest, lookup?_admitted (by decide) (by decide), forest]

theorem admitted_withoutFilters :
    admitted o (withoutFilters es) = withoutFilters (admitted o es) := by
  unfold admitted withoutFilters
  split
  · rfl
  · simp

/-- No other parameter is read from the entry of the filters. -/
theorem scalars_withoutFilters : scalars o (withoutFilters es) = scalars o es := by
  have hread : Scalars.read (withoutFilters es) = Scalars.read es := by
    simp only [Scalars.read, withoutFilters, Scalars.parameter_skip, ne_eq, String.reduceEq,
      not_false_eq_true]
  rw [scalars_eq, scalars_eq, hread]

theorem validateWith_error_iff {e : Error} :
    ((entries es).validateWith schema o).outcome = .error e ↔
      (Validation.request schema o es []).outcome = .error e ∨
        ∃ r m, (Validation.request schema o es []).outcome = .ok (r, m) ∧ m ≠ [] ∧
          e = .invalidParameters m (schema.map (·.name)) := by
  have hrun : ((entries es).validateWith schema o).outcome =
      (Validation.request schema o es []).outcome >>= fun p =>
        if p.2.isEmpty then .ok p.1
        else .error (.invalidParameters p.2 (schema.map (·.name))) := by
    rw [validateWith, Traced.bind_outcome, Traced.lift_outcome, toEntries, Outcome.ok_bind,
      Traced.bind_outcome]
    refine congrArg _ (funext fun p => ?_)
    obtain ⟨r, m⟩ := p
    cases m <;> rfl
  rw [hrun]
  cases (Validation.request schema o es []).outcome with
  | error e' => simp
  | ok p =>
    obtain ⟨r, m⟩ := p
    cases m with
    | nil => simp
    | cons d m =>
      constructor
      · intro h
        cases h
        exact .inr ⟨r, _, rfl, by simp, rfl⟩
      · rintro (h | ⟨r', m', h, _, rfl⟩)
        · cases h
        · cases h
          rfl

theorem failsOnly_givenFilters :
    FailsOnly (forest es).EndsCheck (givenFilters schema o es) := by
  unfold givenFilters
  split
  · exact failsOnly_filters _
  · exact failsOnly_pure _

/-- Beside the filters, what fails at once fails without the filters as well. -/
theorem rest_error {given : Scalars} {used : Option Strategy} {q : OrderParams} {m : Messages}
    {e : Error} (h : (rest schema o es given used q m).outcome = .error e) :
    (forest es).EndsCheck e ∨
      (rest schema o (withoutFilters es) given used q m).outcome = .error e := by
  rcases bind_error_iff.1 h with h | ⟨fs, n, _, h⟩
  · exact .inl (failsOnly_givenFilters m e h)
  · rcases bind_error_iff.1 h with h | ⟨_, _, _, h⟩
    · -- Pagination fails with what the filters complained about as it does without.
      have hnone : givenFilters schema o (withoutFilters es) = pure [] := by
        unfold givenFilters
        split <;> rfl
      refine .inr (bind_error_iff.2 (.inr ⟨[], m, by rw [hnone]; rfl, ?_⟩))
      exact bind_error_iff.2 (.inl ((adds_pagination _ _ _).error h m))
    · cases h

theorem request_error {e : Error} (h : (Validation.request schema o es []).outcome = .error e) :
    (forest es).EndsCheck e ∨
      (Validation.request schema o (withoutFilters es) []).outcome = .error e := by
  rw [request_eq] at h ⊢
  rw [admitted_withoutFilters, scalars_withoutFilters]
  -- The steps up to the filters are the same, and do not look at them.
  refine bind_error_or h fun given m h => bind_error_or h fun used m h =>
    bind_error_or h fun q m h => ?_
  exact (rest_error h).imp_left fun hends => forest_admitted ▸ hends

/-- Parameters are refused as invalid, unless the filters end the check or the parameters are refused
alike without their filters. -/
theorem validateWith_error {e : Error}
    (h : ((entries es).validateWith schema o).outcome = .error e) :
    e.IsValidation ∨ (forest es).EndsCheck e ∨
      ((entries (withoutFilters es)).validateWith schema o).outcome = .error e := by
  rcases validateWith_error_iff.1 h with h | ⟨r, m, _, _, rfl⟩
  · exact .inr ((request_error h).imp_right fun h => validateWith_error_iff.2 (.inl h))
  · exact .inl ⟨_, rfl, rfl⟩

/-- The filters among parameters are no list, or one of them is flawed. -/
def HasFlaw (schema : Option Schema) (es : List (Value × Value)) : Prop :=
  forest es ≠ .null ∧ ∀ xs, (forest es).Listed xs → ∃ x ∈ xs, x.Flawed schema

theorem HasFlaw.not_forestSays (h : HasFlaw schema es) (fs : List Filter) :
    ¬(forest es).ForestSays schema fs := by
  rintro (⟨hnull, _⟩ | ⟨xs, hlist, hsays⟩)
  · exact h.1 hnull
  · obtain ⟨x, hx, hflaw⟩ := h.2 xs hlist
    obtain ⟨f, hf⟩ := Value.exists_says_of_mem (Value.sayEach_iff.2 hsays) hx
    exact hflaw.not_says f hf

/-- **No filter is lost.** Where invalid parameters are rejected, a valid request has exactly the
filters that were given. Flawed filters make no request: the parameters are refused, and as invalid
ones, unless the filters end the check, with an index number beyond all integers or a field whose text
cannot be written, or the parameters are refused in the same way without their filters. -/
theorem validateWith_lossless (schema : Option Schema) (es : List (Value × Value))
    (hfilters : o.filters = true) (hstrict : o.replaces = false) :
    (∀ r, ((entries es).validateWith schema o).outcome = .ok r →
      (forest es).ForestSays schema r.filters) ∧
    (HasFlaw schema es → ∃ e, ((entries es).validateWith schema o).outcome = .error e ∧
      (e.IsValidation ∨ (forest es).EndsCheck e ∨
        ((entries (withoutFilters es)).validateWith schema o).outcome = .error e)) := by
  have hforest : ∀ r, ((entries es).validateWith schema o).outcome = .ok r →
      (forest es).ForestSays schema r.filters := by
    intro r hr
    obtain ⟨es', hes, hclean⟩ := validateWith_eq_ok_iff.1 hr
    cases hes
    obtain ⟨given, used, _, _, _, hgiven, _⟩ := clean_request_iff.1 hclean
    rw [givenFilters, if_pos hfilters] at hgiven
    exact forest_admitted (o := o) ▸ filters_say hstrict hgiven
  refine ⟨hforest, fun hflaw => ?_⟩
  cases houtcome : ((entries es).validateWith schema o).outcome with
  | ok r => exact absurd (hforest r houtcome) (hflaw.not_forestSays _)
  | error e => exact ⟨e, rfl, validateWith_error houtcome⟩

/-- Options that admit orderings and filters and reject what is invalid. -/
def admitting : Options :=
  { (default : Options) with ordering := .bool true, filtering := .bool true }

/-- The same options with a default ordering in a direction that does not exist. -/
def sideways : Options :=
  { admitting with
    defaultOrder := .map [(.text "order_by", .list [.text "id"]),
      (.text "order_directions", .list [.text "sideways"])] }

/-- A group of two conditions. -/
def pairedFilters : List (Value × Value) :=
  [(.text "filters", .list [.map [
    (.text "filters", .list [.map [(.text "field", .text "a"), (.text "value", .int 1)],
      .map [(.text "field", .text "b"), (.text "op", .text "<"), (.text "value", .int 2)]])]])]

/-- A filter on a field without a name. -/
def blankFilter : List (Value × Value) :=
  [(.text "filters", .list [.map [(.text "field", .text "")]])]

theorem hasFlaw_blankFilter : HasFlaw none blankFilter := by
  refine ⟨by simp [forest, blankFilter], ?_⟩
  rintro xs ⟨⟩
  exact ⟨_, List.mem_singleton_self _, .condition rfl rfl (.blank rfl)⟩

/-- A group of two conditions is kept, and a condition without a field is refused. -/
theorem validateWith_lossless_admitting :
    admitting.filters = true ∧ admitting.replaces = false ∧
    (∃ r, ((entries pairedFilters).validateWith none admitting).outcome = .ok r ∧
      r.filters = [.group .all [.condition ⟨"a", .eq, .int 1⟩, .condition ⟨"b", .lt, .int 2⟩]] ∧
      (forest pairedFilters).ForestSays none r.filters) ∧
    HasFlaw none blankFilter ∧
    ∃ e, ((entries blankFilter).validateWith none admitting).outcome = .error e ∧
      e.IsValidation := by
  refine ⟨rfl, rfl, ?_, hasFlaw_blankFilter, ?_⟩
  · have hvalid : ((entries pairedFilters).validateWith none admitting).outcome = .ok
        ⟨[.group .all [.condition ⟨"a", .eq, .int 1⟩, .condition ⟨"b", .lt, .int 2⟩]], none, none,
          .empty, none⟩ := rfl
    have hkept := (validateWith_lossless (o := admitting) none pairedFilters rfl rfl).1 _ hvalid
    exact ⟨_, hvalid, rfl, hkept⟩
  · obtain ⟨e, he, _⟩ :=
      (validateWith_lossless (o := admitting) none blankFilter rfl rfl).2 hasFlaw_blankFilter
    cases he
    exact ⟨_, rfl, _, rfl, rfl⟩

/-- **A default ordering that cannot be read is found before the filters**, and it is no fault of the
parameters. -/
theorem flawed_behind_default_order :
    sideways.filters = true ∧ sideways.replaces = false ∧ HasFlaw none blankFilter ∧
    ∃ e, ((entries blankFilter).validateWith none sideways).outcome = .error e ∧
      ¬e.IsValidation := by
  refine ⟨rfl, rfl, hasFlaw_blankFilter, _, rfl, ?_⟩
  rintro ⟨p, ⟨⟩, _⟩

end Params

end Sieve
