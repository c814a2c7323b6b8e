import Sieve.Proofs.Validation.Lossless
import Sieve.Proofs.Validation.Strict

/-!
# Valid parameters where invalid ones are replaced

Options say whether invalid parameters are complained about or replaced. Valid parameters become the
same request in either case, and where invalid ones would be replaced nothing is reported.

* `Checking.Silent`: a check gives its answer without an event and without a complaint;
* `Checking.Allows`: what one check answers without a complaint, another one answers silently;
* `Checking.Allows.bind`: a sequence of checks allows what its steps allow;
* `Validation.allows_request`: the check that complains allows the check that replaces;
* `Params.validate_lenient`: valid parameters become the same request.
-/

namespace Sieve

namespace Checking

variable {α β : Type}

/-- The check gives its answer without an event and without a complaint. -/
def Silent (x : Checking α) (a : α) : Prop :=
  x [] = ⟨[], .ok (a, [])⟩

/-- What the first check answers without a complaint, the second one answers silently. The first one
takes no complaint back. -/
structure Allows (x y : Checking α) : Prop where
  adds : Adds x
  silent : ∀ a, Clean x a → Silent y a

theorem Silent.bind {x : Checking α} {f : α → Checking β} {a : α} {b : β} (hx : Silent x a)
    (hf : Silent (f a) b) : Silent (x >>= f) b := by
  unfold Silent at hx hf ⊢
  rw [bind_run, hx, Traced.bind_ok, hf]
  rfl

theorem allows_pure (a : α) : Allows (pure a) (pure a) where
  adds := adds_pure a
  silent b hb := by
    rw [clean_pure_iff.1 hb]
    rfl

theorem allows_lift (x : Except Error α) : Allows (lift x) (lift x) where
  adds := adds_lift x
  silent a ha := by
    rw [clean_lift_iff.1 ha]
    rfl

/-- A sequence of checks allows what its steps allow. -/
theorem Allows.bind {x y : Checking α} {f g : α → Checking β} (hx : Allows x y)
    (hfg : ∀ a, Allows (f a) (g a)) : Allows (x >>= f) (y >>= g) where
  adds := adds_bind hx.adds fun a => (hfg a).adds
  silent b hb := by
    obtain ⟨a, ha, hb⟩ := (clean_bind_iff fun a => (hfg a).adds).1 hb
    exact (hx.silent a ha).bind ((hfg a).silent b hb)

/-- Both checks decide alike how they go on. -/
theorem Allows.ite {c : Prop} [Decidable c] {x x' y y' : Checking α}
    (hx : c → Allows x x') (hy : ¬c → Allows y y') :
    Allows (if c then x else y) (if c then x' else y') := by
  by_cases hc : c
  · rw [if_pos hc, if_pos hc]
    exact hx hc
  · rw [if_neg hc, if_neg hc]
    exact hy hc

/-- A check with a complaint allows anything. -/
theorem allows_of_not_clean {x y : Checking α} (hx : Adds x) (h : ∀ a, ¬Clean x a) : Allows x y :=
  ⟨hx, fun a ha => absurd ha (h a)⟩

theorem allows_complain (parameter message : String) (y : Checking Unit) :
    Allows (complain parameter message) y :=
  allows_of_not_clean (adds_complain _ _) fun _ => not_clean_complain

theorem allows_complain_pure (parameter message : String) (a : α) (y : Checking α) :
    Allows (complain parameter message >>= fun _ => pure a) y :=
  allows_of_not_clean (adds_bind (adds_complain _ _) fun _ => adds_pure _)
    fun _ => not_clean_complain_bind

theorem allows_fail (e : Error) (y : Checking α) : Allows (fail e) y :=
  allows_of_not_clean (adds_fail e) fun _ => not_clean_fail

end Checking

/-- The options with another setting for invalid parameters. -/
def Options.withReplaceInvalid (o : Options) (v : Value) : Options :=
  { o with replaceInvalid := v }

namespace Validation

open Checking

variable {schema : Option Schema} {o : Options} (v : Value)

/-! ### Filters -/

theorem allows_reject (hstrict : o.replaces = false) {messages : Messages} (hm : messages ≠ [])
    (path : String) (y : Checking (Option Filter)) : Allows (reject o path messages) y := by
  refine allows_of_not_clean (adds_reject path messages) fun r hr => ?_
  have hreplaces := (clean_reject hm hr).2
  rw [hstrict] at hreplaces
  cases hreplaces

mutual

theorem allows_filter (hstrict : o.replaces = false) (path : String) (d : Draft) :
    Allows (filter schema o path d) (filter schema (o.withReplaceInvalid v) path d) := by
  match d with
  | .unreadable => exact allows_complain_pure _ _ _ _
  | .condition field op value =>
    unfold filter
    refine (allows_lift _).bind fun _ => ?_
    cases hc : condition schema path field op value with
    | ok c => exact allows_pure _
    | error messages => exact allows_reject hstrict (condition_error hc) _ _
  | .group type children =>
    unfold filter
    cases groupKind? type with
    | none => exact allows_reject hstrict (by simp) _ _
    | some kind =>
      refine (allows_filterEach hstrict (path ++ ".filters") 0 children).bind fun fs => ?_
      split
      · exact allows_pure _
      · exact allows_reject hstrict (by simp) _ _
  | .unbounded type =>
    unfold filter
    cases groupKind? type with
    | none => exact allows_reject hstrict (by simp) _ _
    | some kind => exact allows_fail _ _

theorem allows_filterEach (hstrict : o.replaces = false) (path : String) (place : Nat)
    (ds : List Draft) : Allows (filterEach schema o path place ds)
      (filterEach schema (o.withReplaceInvalid v) path place ds) := by
  match ds with
  | [] => exact allows_pure _
  | d :: ds =>
    unfold filterEach
    exact (allows_filter hstrict _ d).bind fun f =>
      (allows_filterEach hstrict _ _ ds).bind fun fs => allows_pure _

end

variable (hstrict : o.replaces = false)
include hstrict

theorem allows_filters (given : Value) :
    Allows (filters schema o given) (filters schema (o.withReplaceInvalid v) given) := by
  unfold filters
  split
  · exact allows_pure _
  · split
    · exact allows_filterEach v hstrict _ _ _
    · exact allows_fail _ _
    · dsimp only
      rw [hstrict]
      exact allows_complain_pure _ _ _ _

theorem allows_givenFilters (entries : List (Value × Value)) :
    Allows (givenFilters schema o entries)
      (givenFilters schema (o.withReplaceInvalid v) entries) := by
  have hadmitted : (o.withReplaceInvalid v).filters = o.filters := rfl
  rw [givenFilters, givenFilters, hadmitted]
  split
  · exact allows_filters v hstrict _
  · exact allows_pure _

/-! ### Scalar parameters and orderings -/

theorem allows_scalars (entries : List (Value × Value)) :
    Allows (scalars o entries) (scalars (o.withReplaceInvalid v) entries) where
  adds := by
    rw [scalars_eq]
    exact adds_bind (adds_dropScalars _) fun _ => adds_pure _
  silent given hgiven := by
    rw [scalars_eq, (clean_scalars_iff hstrict).1 hgiven]
    rfl

theorem allows_sortable (s : Schema) (names : List String) (ds : Option (List Direction)) :
    Allows (sortable s o names ds) (sortable s (o.withReplaceInvalid v) names ds) := by
  unfold sortable
  dsimp only
  split
  · exact allows_pure _
  · rw [hstrict]
    exact allows_complain_pure _ _ _ _

theorem allows_order (given : Scalars) :
    Allows (order given schema o) (order given schema (o.withReplaceInvalid v)) := by
  unfold order
  refine (allows_lift (o.orderingOf given)).bind fun (names, ds) => ?_
  dsimp only
  split
  · exact (allows_sortable v hstrict _ _ _).bind fun _ => allows_pure _
  · exact allows_pure _

/-! ### Pagination -/

theorem allows_replace (name : String) (n r : Value) (message : Except Error String)
    (y : Checking Value) : Allows (replace o name n r message) y :=
  allows_of_not_clean (adds_replace name n r message) fun _ => not_clean_replace hstrict

omit hstrict in
theorem allows_require (name : String) (required : Bool) (n : Value) :
    Allows (require name required n) (require name required n) := by
  unfold require
  split
  · exact allows_complain _ _ _
  · exact allows_pure _

omit hstrict in
theorem allows_requireOrder (orderBy : Option (List String)) :
    Allows (requireOrder orderBy) (requireOrder orderBy) := by
  unfold requireOrder
  split
  · exact allows_complain _ _ _
  · exact allows_pure _

theorem allows_size (name : String) (required : Bool) (given : Value) :
    Allows (size o name required given) (size (o.withReplaceInvalid v) name required given) := by
  refine Allows.ite (fun _ => ?_) fun _ => (allows_lift _).bind fun low => ?_
  · exact (allows_require name required _).bind fun _ => allows_pure _
  · refine Allows.ite (fun _ => ?_) fun _ => Allows.ite (fun _ => allows_pure _) fun _ => ?_
    · exact (allows_replace hstrict _ _ _ _ _).bind fun _ =>
        (allows_require _ _ _).bind fun _ => allows_pure _
    · exact (allows_lift _).bind fun high =>
        Allows.ite (fun _ => allows_replace hstrict _ _ _ _ _) fun _ => allows_pure _

theorem allows_atLeast (name message : String) (least given : Value)
    (tooLow : Value → Except Error Bool) : Allows (atLeast o name least tooLow message given)
      (atLeast (o.withReplaceInvalid v) name least tooLow message given) := by
  refine Allows.ite (fun _ => allows_pure _) fun _ => (allows_lift _).bind fun low => ?_
  exact Allows.ite (fun _ => allows_replace hstrict _ _ _ _ _) fun _ => allows_pure _

theorem allows_token (name : String) (orderBy : Option (List String)) (given : Value) :
    Allows (token schema o name orderBy given)
      (token schema (o.withReplaceInvalid v) name orderBy given) := by
  rw [token_eq, token_eq]
  split
  · exact allows_pure _
  · cases typedCursor schema given with
    | error e =>
      rw [hstrict]
      exact allows_fail _ _
    | ok c =>
      dsimp only
      split
      · exact allows_pure _
      · rw [hstrict]
        exact allows_complain_pure _ _ _ _

theorem allows_parameters (orderBy : Option (List String)) (p : Pagination) (s : Option Strategy) :
    Allows (parameters schema o orderBy p s)
      (parameters schema (o.withReplaceInvalid v) orderBy p s) := by
  cases s with
  | none => exact allows_pure _
  | some s =>
    cases s with
    | first | last =>
      exact (allows_size v hstrict _ _ _).bind fun n => (allows_requireOrder orderBy).bind fun _ =>
        (allows_token v hstrict _ orderBy _).bind fun _ => allows_pure _
    | page | offset =>
      exact (allows_size v hstrict _ _ _).bind fun n =>
        (allows_atLeast v hstrict _ _ _ _ _).bind fun _ => allows_pure _

theorem allows_pagination (orderBy : Option (List String)) (p : Pagination)
    (used : Option Strategy) : Allows (pagination schema o orderBy p used)
      (pagination schema (o.withReplaceInvalid v) orderBy p used) := by
  have hstandIn : standIn (o.withReplaceInvalid v) p = standIn o p := rfl
  have hadmits : ∀ p s, admits (o.withReplaceInvalid v) p s = admits o p s := fun _ _ => rfl
  unfold pagination
  rw [hstandIn]
  generalize (if used.isSome then (p, used) else standIn o p) = q
  obtain ⟨p, s⟩ := q
  cases s with
  | none => exact allows_parameters v hstrict orderBy p none
  | some s =>
    dsimp only
    rw [hadmits]
    split
    · exact allows_parameters v hstrict orderBy p (some s)
    · exact allows_complain_pure _ _ _ _

/-! ### Requests -/

/-- **The check that complains allows the check that replaces.** -/
theorem allows_request (entries : List (Value × Value)) : Allows (request schema o entries)
    (request schema (o.withReplaceInvalid v) entries) := by
  have hadmitted : admitted (o.withReplaceInvalid v) entries = admitted o entries := rfl
  rw [request_eq, request_eq, hadmitted]
  refine (allows_scalars v hstrict _).bind fun given => (allows_lift _).bind fun used =>
    (allows_order v hstrict given).bind fun q => ?_
  exact (allows_givenFilters v hstrict _).bind fun fs =>
    (allows_pagination v hstrict q.1 given.pagination used).bind fun _ => allows_pure _

end Validation

/-- The setting of a call for invalid parameters counts before the global one, and changes nothing
else. -/
theorem Options.resolve_replaceInvalid {global : Properties} {schema : Option Schema}
    {call : Overrides} {o : Options} {a : Bool} (b : Bool)
    (h : resolve global schema { call with replaceInvalid := .bool a } = .ok o) :
    o.replaces = a ∧ resolve global schema { call with replaceInvalid := .bool b } =
      .ok (o.withReplaceInvalid (.bool b)) := by
  unfold resolve at h ⊢
  dsimp only at h ⊢
  split at h
  · cases h
  · next hknown =>
    obtain ⟨types, htypes, h⟩ := Outcome.bind_eq_ok_iff.1 h
    obtain ⟨type, htype, h⟩ := Outcome.bind_eq_ok_iff.1 h
    cases h
    rw [if_neg hknown, htypes, Outcome.ok_bind, htype]
    exact ⟨rfl, rfl⟩

/-- The options in force where nothing is set but what becomes of invalid parameters. -/
def Options.standard (replaceInvalid : Bool) : Options :=
  ⟨.null, .null, .null, none, none, .bool replaceInvalid, .bool true, .bool true, .warn, .map [],
    none⟩

theorem Options.resolve_standard (b : Bool) :
    resolve .standard none { Overrides.none with replaceInvalid := .bool b } =
      .ok (standard b) := by
  show Except.ok _ = _
  simp only [Properties.standard, ofSchema, setting_null, limitSetting_null, Overrides.none,
    Option.map_none, Option.getD_none]
  rfl

namespace Params

/-- Parameters are checked with the options in force. -/
theorem validate_of_resolve {params : Params} {global : Properties} {schema : Option Schema}
    {call : Overrides} {o : Options} (h : Options.resolve global schema call = .ok o) :
    params.validate global schema call = params.validateWith schema o := by
  rw [validate, h, Traced.lift, Traced.bind_ok]
  rfl

/-- Valid parameters become the same request where invalid ones are replaced, and nothing is reported
then. -/
theorem validateWith_lenient {params : Params} {schema : Option Schema} {o : Options} {r : Request}
    (hstrict : o.replaces = false) (h : (params.validateWith schema o).outcome = .ok r) (v : Value) :
    params.validateWith schema (o.withReplaceInvalid v) = ⟨[], .ok r⟩ := by
  obtain ⟨entries, hentries, hclean⟩ := validateWith_eq_ok_iff.1 h
  have hsilent := (Validation.allows_request v hstrict entries).silent r hclean
  have hrun : Validation.request schema (o.withReplaceInvalid v) entries [] =
      ⟨[], .ok (r, [])⟩ := hsilent
  rw [validateWith, hentries, Traced.lift, Traced.bind_ok, hrun]
  rfl

/-- **Valid parameters are never replaced.** Parameters that become a request where invalid ones are
complained about become the very same request where they are replaced, and nothing is reported. -/
theorem validate_lenient {params : Params} {global : Properties} {schema : Option Schema}
    {call : Overrides} {r : Request}
    (h : (params.validate global schema { call with replaceInvalid := .bool false }).outcome =
      .ok r) :
    params.validate global schema { call with replaceInvalid := .bool true } = ⟨[], .ok r⟩ := by
  rw [validate, Traced.bind_outcome] at h
  obtain ⟨o, ho, h⟩ := Outcome.bind_eq_ok_iff.1 h
  obtain ⟨hstrict, hlenient⟩ := Options.resolve_replaceInvalid true ho
  rw [validate_of_resolve hlenient]
  exact validateWith_lenient hstrict h _

/-- The first row in an order, among those that meet a group of conditions. -/
def leastPaired : List (Value × Value) :=
  (.text "order_by", .list [.text "a", .text "b"]) ::
    (.text "order_directions", .list [.text "desc"]) :: (.text "first", .int 1) :: pairedFilters

/-- Valid parameters with an ordering, a size and nested filters become the same request in both
modes. -/
theorem validate_lenient_leastPaired : ∃ r,
    ((entries leastPaired).validate .standard none
      { Overrides.none with replaceInvalid := .bool false }).outcome = .ok r ∧
    r.filters = [.group .all [.condition ⟨"a", .eq, .int 1⟩, .condition ⟨"b", .lt, .int 2⟩]] ∧
    r.sort = [⟨"a", .desc⟩, ⟨"b", .asc⟩] ∧ r.size = .int 1 ∧
    (entries leastPaired).validate .standard none
      { Overrides.none with replaceInvalid := .bool true } = ⟨[], .ok r⟩ := by
  have hvalid : ((entries leastPaired).validate .standard none
      { Overrides.none with replaceInvalid := .bool false }).outcome = .ok
        ⟨[.group .all [.condition ⟨"a", .eq, .int 1⟩, .condition ⟨"b", .lt, .int 2⟩]],
          some ["a", "b"], some [.desc], { Pagination.empty with first := .int 1 }, none⟩ := by
    rw [validate_of_resolve (Options.resolve_standard false)]
    rfl
  exact ⟨_, hvalid, rfl, rfl, rfl, validate_lenient hvalid⟩

end Params

end Sieve
