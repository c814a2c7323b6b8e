import Sieve.Proofs.Validation.Paginated

/-!
# What single checks answer where invalid parameters are replaced

A check that drops or replaces what is invalid gives some answer, whatever was complained about before.
Only a number of rows without a default for it is complained about, and a missing ordering.

* `Checking.Answers`: what a check answers and complains about, whatever was complained about before;
* `Checking.Answers.bind`: a sequence of checks complains about what its steps complain about;
* `Draft.Readable`: drafts of filters that consist of maps;
* `Validation.passes_filters`, `Validation.passes_order`: filters and orderings;
* `Validation.answers_size`, `Validation.passes_atLeast`, `Validation.passes_token`: numbers and tokens.
-/

namespace Sieve

theorem Messages.addEach_ne_nil (m : Messages) {cs : List (String × String)} (h : cs ≠ []) :
    m.addEach cs ≠ [] := by
  obtain ⟨c, ds, rfl⟩ := List.exists_cons_of_ne_nil h
  suffices hkept : ∀ n : Messages, n ≠ [] → n.addEach ds ≠ [] from
    hkept _ (Messages.add_ne_nil _ _ _)
  induction ds with
  | nil => exact fun n hn => hn
  | cons d ds ih => exact fun n _ => ih (by simp) _ (Messages.add_ne_nil _ _ _)

namespace Checking

variable {α β : Type} {P : α → Prop} {Q : β → Prop} {x : Checking α} {f : α → Checking β}
  {cs ds : List (String × String)} {e : Error}

/-- Whatever was complained about before, the check gives an answer with the property and adds the
complaints. -/
def Answers (P : α → Prop) (cs : List (String × String)) (x : Checking α) : Prop :=
  ∀ m, ∃ a, (x m).outcome = .ok (a, m.addEach cs) ∧ P a

/-- The check gives some answer without a complaint. -/
def Passes (x : Checking α) : Prop :=
  Answers (fun _ => True) [] x

/-- Whatever was complained about before, the check fails with the error. -/
def Fails (e : Error) (x : Checking α) : Prop :=
  ∀ m, (x m).outcome = .error e

theorem answers_pure {a : α} (h : P a) : Answers P [] (pure a) := fun _ => ⟨a, rfl, h⟩

theorem passes_pure (a : α) : Passes (pure a) := answers_pure trivial

theorem passes_report (e : Event) : Passes (report e) := fun _ => ⟨(), rfl, trivial⟩

theorem answers_complain (parameter message : String) :
    Answers (fun _ => True) [(parameter, message)] (complain parameter message) :=
  fun _ => ⟨(), rfl, trivial⟩

theorem answers_lift {r : Except Error α} {a : α} (h : r = .ok a) : Answers (· = a) [] (lift r) := by
  subst h
  exact fun _ => ⟨a, rfl, rfl⟩

/-- A sequence of checks complains about what its steps complain about. -/
theorem Answers.bind (hx : Answers P cs x) (hf : ∀ a, P a → Answers Q ds (f a)) :
    Answers Q (cs ++ ds) (x >>= f) := by
  intro m
  obtain ⟨a, ha, hP⟩ := hx m
  obtain ⟨b, hb, hQ⟩ := hf a hP (m.addEach cs)
  refine ⟨b, ?_, hQ⟩
  rw [bind_run, Traced.bind_outcome, ha, Messages.addEach_append]
  exact hb

/-- After a check without a complaint only its answer matters. -/
theorem Answers.pass (hx : Answers P [] x) (hf : ∀ a, P a → Answers Q ds (f a)) :
    Answers Q ds (x >>= f) := hx.bind hf

theorem Passes.bind (hx : Passes x) (hf : ∀ a, Answers Q ds (f a)) : Answers Q ds (x >>= f) :=
  Answers.pass hx fun a _ => hf a

theorem Answers.imp {R : α → Prop} (hx : Answers P cs x) (h : ∀ a, P a → R a) : Answers R cs x :=
  fun m => (hx m).imp fun a ha => ⟨ha.1, h a ha.2⟩

/-- What a check without a complaint answers is told by its outcomes. -/
theorem Passes.answers (hx : Passes x) (h : ∀ {m n a}, (x m).outcome = .ok (a, n) → P a) :
    Answers P [] x :=
  fun m => (hx m).imp fun _ ha => ⟨ha.1, h ha.1⟩

/-- A computation that succeeds is followed by what comes after its answer. -/
theorem answers_lift_bind {r : Except Error α} {a : α} (h : r = .ok a) (hf : Answers Q ds (f a)) :
    Answers Q ds (lift r >>= f) :=
  (answers_lift h).pass fun b hb => by
    rw [hb]
    exact hf

theorem Fails.bind (hx : Fails e x) : Fails e (x >>= f) := by
  intro m
  rw [bind_run, Traced.bind_outcome, hx m]
  rfl

theorem fails_lift_bind {r : Except Error α} (h : r = .error e) : Fails e (lift r >>= f) :=
  Fails.bind fun _ => congrArg (Except.map _) h

/-- A failure that follows on an answer is the failure of both. -/
theorem Answers.fails_bind (hx : Answers P cs x) (hf : ∀ a, P a → Fails e (f a)) :
    Fails e (x >>= f) := by
  intro m
  obtain ⟨a, ha, hP⟩ := hx m
  rw [bind_run, Traced.bind_outcome, ha]
  exact hf a hP _

end Checking

/-- The value is null or a number. -/
def Value.IsNumeric (v : Value) : Prop :=
  v = .null ∨ ∃ l, v.HasLevel l

/-- Whether the value is a number above zero. -/
def Value.isPositive (v : Value) : Bool :=
  v.precedes true (.int 0) matches .ok false

theorem Value.isPositive_eq {v : Value} {low : Bool} (h : v.precedes true (.int 0) = .ok low) :
    v.isPositive = !low := by
  cases low <;> simp [isPositive, h]

theorem Value.isPositive_null : null.isPositive = false := by
  simp [isPositive, precedes, number?]

/-- The limits are numbers, where they are set. -/
structure Options.NumericLimits (o : Options) : Prop where
  default : o.defaultLimit.IsNumeric
  greatest : o.maxLimit.IsNumeric

/-- The draft is made of maps whose fields can be written, as far as it is looked at: the children of a
group of no known kind are not. -/
inductive Draft.Readable : Draft → Prop
  | condition {field op value : Value} (h : Validation.named field = .ok ()) :
      Readable (.condition field op value)
  | group {type : Value} {children : List Draft} (h : ∀ d ∈ children, Readable d) :
      Readable (.group type children)
  | unknown {type : Value} (children : List Draft) (h : Validation.groupKind? type = none) :
      Readable (.group type children)
  | unbounded {type : Value} (h : Validation.groupKind? type = none) :
      Readable (.unbounded type)

/-- The filters that a value is given as are readable, and are not numbered beyond all integers. -/
structure Value.DraftsReadable (v : Value) : Prop where
  bounded : v.drafts ≠ .error .overflow
  readable : ∀ ds, v.drafts = .ok ds → ∀ d ∈ ds, d.Readable

theorem Options.setting_isNull {above below : Value} (h : (setting above below).isNull = true) :
    above = .null ∧ below.isNull = true := by
  unfold setting at h
  split at h
  · next habove => exact ⟨Value.isNull_iff.1 habove, h⟩
  · next habove => exact absurd h habove

theorem Options.setting_of_isNull {above below : Value} (h : below.isNull = true) :
    setting above below = above := by
  unfold setting
  split
  · next habove => rw [Value.isNull_iff.1 h, Value.isNull_iff.1 habove]
  · rfl

theorem Options.setting_isNumeric {above below : Value} (ha : above.IsNumeric)
    (hb : below.IsNumeric) : (setting above below).IsNumeric := by
  unfold setting
  split
  · exact hb
  · exact ha

namespace Validation

open Checking

variable {schema : Option Schema} {o : Options}

/-! ### Scalar parameters -/

theorem passes_dropScalars (hreplaces : o.replaces = true) (complaints : List Detail) :
    Passes (dropScalars o complaints) := by
  induction complaints with
  | nil => exact passes_pure _
  | cons d complaints ih =>
    have hcons : dropScalars o (d :: complaints) =
        report (.paramDropped d.path d.message) >>= fun _ => dropScalars o complaints := by
      unfold dropScalars
      rw [hreplaces]
      rfl
    rw [hcons]
    exact (passes_report _).bind fun _ => ih

theorem answers_scalars (hreplaces : o.replaces = true) (es : List (Value × Value)) :
    Answers (· = (Scalars.read es).1) [] (scalars o es) := by
  rw [scalars_eq]
  exact (passes_dropScalars hreplaces _).bind fun _ => answers_pure rfl

/-! ### Filters -/

theorem passes_reject (hreplaces : o.replaces = true) (path : String) (messages : Messages) :
    Passes (reject o path messages) := by
  rw [reject, if_pos hreplaces]
  exact (passes_report _).bind fun _ => passes_pure _

mutual

theorem passes_filter (hreplaces : o.replaces = true) (path : String) {d : Draft}
    (h : d.Readable) : Passes (filter schema o path d) := by
  match h with
  | .condition h =>
    unfold filter
    refine answers_lift_bind h ?_
    split
    · exact passes_pure _
    · exact passes_reject hreplaces _ _
  | @Draft.Readable.group type children h =>
    unfold filter
    split
    · exact passes_reject hreplaces _ _
    · refine (passes_filterEach hreplaces _ _ h).bind fun fs => ?_
      split
      · exact passes_pure _
      · exact passes_reject hreplaces _ _
  | .unknown children h =>
    unfold filter
    rw [h]
    exact passes_reject hreplaces _ _
  | .unbounded h =>
    unfold filter
    rw [h]
    exact passes_reject hreplaces _ _

theorem passes_filterEach (hreplaces : o.replaces = true) (path : String) (place : Nat)
    {ds : List Draft} (h : ∀ d ∈ ds, d.Readable) : Passes (filterEach schema o path place ds) := by
  match ds with
  | [] => exact passes_pure _
  | d :: ds =>
    unfold filterEach
    exact (passes_filter hreplaces _ (h d (by simp))).bind fun _ =>
      (passes_filterEach hreplaces _ _ fun d hd => h d (by simp [hd])).bind fun _ => passes_pure _

end

theorem passes_filters (hreplaces : o.replaces = true) {v : Value} (h : v.DraftsReadable) :
    Passes (filters schema o v) := by
  unfold filters
  split
  · exact passes_pure _
  · split
    · next ds hds => exact passes_filterEach hreplaces _ _ (h.readable ds hds)
    · next hoverflow => exact absurd hoverflow h.bounded
    · exact (passes_report _).bind fun _ => passes_pure _

theorem passes_givenFilters (hreplaces : o.replaces = true) {es : List (Value × Value)}
    (h : o.filters = true → ((Value.lookup? "filters" es).getD .null).DraftsReadable) :
    Passes (givenFilters schema o es) := by
  unfold givenFilters
  split
  · next hfilters => exact passes_filters hreplaces (h hfilters)
  · exact passes_pure _

/-! ### Orderings -/

theorem passes_sortable (hreplaces : o.replaces = true) (s : Schema) (names : List String)
    (ds : Option (List Direction)) : Passes (sortable s o names ds) := by
  unfold sortable
  dsimp only
  split
  · exact passes_pure _
  · exact (passes_report _).bind fun _ => passes_pure _

theorem passes_order (hreplaces : o.replaces = true) {given : Scalars} {q : OrderParams}
    (h : o.orderingOf given = .ok q) : Passes (order given schema o) := by
  obtain ⟨names, ds⟩ := q
  refine answers_lift_bind h ?_
  dsimp only
  split
  · exact (passes_sortable hreplaces _ _ _).bind fun _ => passes_pure _
  · exact passes_pure _

/-! ### Numbers -/

theorem answers_replace (hreplaces : o.replaces = true) (name : String) (n r : Value)
    (message : Except Error String) : Answers (· = r) [] (replace o name n r message) := by
  rw [replace, if_pos hreplaces]
  exact (passes_report _).bind fun _ => answers_pure rfl

/-- The complaint about a number of rows that is not above zero, where there is no default for it. -/
def missing (o : Options) (name : String) (n : Value) : List (String × String) :=
  if o.defaultLimit.isNull && !n.isPositive then [(name, "can't be blank")] else []

/-- Only the default tells whether a number that is not above zero is complained about. -/
theorem missing_eq {given : Value} {low : Bool}
    (h : (Options.setting given o.defaultLimit).precedes true (.int 0) = .ok low) (name : String) :
    missing o name given =
      if low && o.defaultLimit.isNull then [(name, "can't be blank")] else [] := by
  unfold missing
  cases hdefault : o.defaultLimit.isNull with
  | false => simp
  | true =>
    rw [Options.setting_of_isNull hdefault] at h
    rw [Value.isPositive_eq h]
    cases low <;> rfl

theorem answers_require (name : String) (required : Bool) (n : Value) :
    Answers (fun _ => True) (if required && n.isNull then [(name, "can't be blank")] else [])
      (require name required n) := by
  unfold require
  split
  · exact answers_complain _ _
  · exact passes_pure _

/-- A number of rows is complained about only if it is missing, has to be there, and has no
default. -/
theorem answers_size (hreplaces : o.replaces = true) (ho : o.NumericLimits) (name : String)
    (required : Bool) {given : Value} (hgiven : given.IsNumeric) :
    Answers (fun _ => True) (if required then missing o name given else [])
      (size o name required given) := by
  by_cases hnull : (Options.setting given o.defaultLimit).isNull = true
  · -- Nothing is given, and there is no default.
    have hcs : (if required then missing o name given else []) =
        (if required && (Options.setting given o.defaultLimit).isNull
          then [(name, "can't be blank")] else []) ++ [] := by
      obtain ⟨rfl, hdefault⟩ := Options.setting_isNull hnull
      rw [hnull, missing, hdefault, Value.isPositive_null]
      cases required <;> rfl
    rw [hcs]
    unfold size
    dsimp only
    rw [if_pos hnull]
    exact (answers_require _ _ _).bind fun _ _ => passes_pure _
  · obtain ⟨l, hl⟩ := (Options.setting_isNumeric hgiven ho.default).resolve_left
      (mt Value.isNull_iff.2 hnull)
    obtain ⟨low, hlow⟩ : ∃ low, (Options.setting given o.defaultLimit).precedes true (.int 0) =
        .ok low := ⟨_, hl.precedes_le (Value.hasLevel_int 0)⟩
    rw [missing_eq hlow]
    unfold size
    dsimp only
    rw [if_neg hnull]
    refine answers_lift_bind hlow ?_
    cases low with
    | true =>
      -- The default stands in, if there is one.
      have hcs : (if required then if true && o.defaultLimit.isNull
          then [(name, "can't be blank")] else [] else []) =
            [] ++ ((if required && o.defaultLimit.isNull then [(name, "can't be blank")] else []) ++
              []) := by
        cases required <;> simp
      rw [hcs]
      refine (answers_replace hreplaces _ _ _ _).bind fun r hr => ?_
      subst hr
      exact (answers_require _ _ _).bind fun _ _ => passes_pure _
    | false =>
      have hcs : (if required then if false && o.defaultLimit.isNull
          then [(name, "can't be blank")] else [] else []) = [] := by
        cases required <;> rfl
      rw [hcs]
      by_cases hmax : o.maxLimit.isNull = true
      · simp only [hmax, if_true, Bool.false_eq_true, if_false]
        exact passes_pure _
      · obtain ⟨k, hk⟩ := ho.greatest.resolve_left (mt Value.isNull_iff.2 hmax)
        simp only [hmax, Bool.false_eq_true, if_false]
        refine answers_lift_bind (hk.precedes_lt hl) ?_
        split
        · exact (answers_replace hreplaces _ _ _ _).imp fun _ _ => trivial
        · exact passes_pure _

/-- A number with a least value is never complained about. -/
theorem passes_atLeast (hreplaces : o.replaces = true) (name message : String) (least : Value)
    {given : Value} (hgiven : given.IsNumeric) (orEqual : Bool) :
    Passes (atLeast o name least (·.precedes orEqual (.int 0)) message given) := by
  unfold atLeast
  split
  · exact passes_pure _
  · next hnull =>
    obtain ⟨l, hl⟩ := hgiven.resolve_left (mt Value.isNull_iff.2 hnull)
    obtain ⟨low, hlow⟩ : ∃ low, given.precedes orEqual (.int 0) = .ok low :=
      ⟨_, (hl.comparesAs (Value.hasLevel_int 0)).precedes orEqual⟩
    refine answers_lift_bind hlow ?_
    split
    · exact (answers_replace hreplaces _ _ _ _).imp fun _ _ => trivial
    · exact passes_pure _

/-! ### Tokens -/

/-- A token that leads to no cursor for the ordering is dropped. -/
theorem passes_token (hreplaces : o.replaces = true) (name : String)
    (orderBy : Option (List String)) (given : Value) :
    Passes (token schema o name orderBy given) := by
  have hdrop : ∀ reason : String, Passes (dropToken name reason) := fun _ =>
    (passes_report _).bind fun _ => passes_pure _
  rw [token_eq, hreplaces]
  split
  · exact passes_pure _
  · split
    · exact hdrop _
    · split
      · exact passes_pure _
      · exact hdrop _

end Validation

end Sieve
