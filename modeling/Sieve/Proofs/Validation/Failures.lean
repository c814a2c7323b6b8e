import Sieve.Proofs.Validation.Lossless
import Sieve.Proofs.Validation.Paginated
import Sieve.Proofs.Value.Comparing

/-!
# What ends a check at once

Almost everything that is wrong with parameters is complained about, or dropped. A check ends at once
only for parameters of two strategies, an ordering that stands in and cannot be read, filters that are
numbered beyond all integers or name a field by a number that is too long, limits that do not compare or
cannot be written, and tokens that are no cursors.

* `Validation.failsOnly_order`, `Validation.failsOnly_pagination`: one lemma for each check;
* `Validation.orderingOf_fails`: what is wrong with an ordering that is not read;
* `Validation.Ends`, `Validation.request_fails`: the reasons, and that there are no others.
-/

namespace Sieve

namespace Checking

variable {α β : Type} {P : Error → Prop}

/-- A sequence of checks goes on with the answer of the first one. -/
theorem bind_of_ok {x : Checking α} {f : α → Checking β} {m n : Messages} {a : α}
    (h : (x m).outcome = .ok (a, n)) : ((x >>= f) m).outcome = (f a n).outcome := by
  rw [bind_run, Traced.bind_outcome, h]
  rfl

end Checking

namespace Validation

open Checking

variable {schema : Option Schema} {o : Options} {P : Error → Prop}

/-! ### Scalars and orderings -/

theorem failsOnly_dropScalars (complaints : List Detail) :
    FailsOnly P (dropScalars o complaints) := by
  induction complaints with
  | nil => exact failsOnly_pure _
  | cons d complaints ih =>
    refine failsOnly_bind ?_ fun _ => ih
    split
    · exact failsOnly_report _
    · exact failsOnly_complain _ _

/-- Scalars are read one by one; invalid ones are dropped or complained about. -/
theorem failsOnly_scalars (es : List (Value × Value)) : FailsOnly P (scalars o es) := by
  rw [scalars_eq]
  exact failsOnly_bind (failsOnly_dropScalars _) fun _ => failsOnly_pure _

theorem failsOnly_sortable (s : Schema) (names : List String) (ds : Option (List Direction)) :
    FailsOnly P (sortable s o names ds) := by
  unfold sortable
  dsimp only
  split
  · exact failsOnly_pure _
  · split
    · exact failsOnly_bind (failsOnly_report _) fun _ => failsOnly_pure _
    · exact failsOnly_bind (failsOnly_complain _ _) fun _ => failsOnly_pure _

/-- Only the ordering that stands in for a missing one can be one that is not read. -/
theorem failsOnly_order (given : Scalars) :
    FailsOnly (fun e => o.orderingOf given = .error e) (order given schema o) := by
  unfold order
  refine failsOnly_bind (failsOnly_lift fun _ h => h) fun (names, ds) => ?_
  dsimp only
  split
  · exact failsOnly_bind (failsOnly_sortable _ _ _) fun _ => failsOnly_pure _
  · exact failsOnly_pure _

theorem items_fails (v : Value) : Outcome.FailsOnly (· = .mismatch) v.items := by
  cases v <;> first | exact Outcome.failsOnly_ok _ | exact Outcome.failsOnly_error rfl

theorem direction_fails (v : Value) :
    Outcome.FailsOnly (fun e => ∃ v, e = .notAMember "Direction" v) (Direction.ofValue v) := by
  unfold Direction.ofValue
  split
  · split
    · exact Outcome.failsOnly_ok _
    · exact Outcome.failsOnly_error ⟨_, rfl⟩
  · exact Outcome.failsOnly_error ⟨_, rfl⟩

/-- The reasons for which the ordering that stands in for a missing one is not read. -/
def EndsOrdering (e : Error) : Prop :=
  e = .missingAttribute ∨ e = .mismatch ∨ ∃ v, e = .notAMember "Direction" v

theorem orderingOfMap_fails (es : List (Value × Value)) :
    Outcome.FailsOnly EndsOrdering (Options.orderingOfMap es) := by
  have hitems : ∀ v : Value, Outcome.FailsOnly EndsOrdering v.items := fun v e h =>
    .inr (.inl (items_fails v e h))
  have hdirections : ∀ vs : List Value,
      Outcome.FailsOnly EndsOrdering (vs.mapM Direction.ofValue) := fun vs =>
    Outcome.failsOnly_mapM fun v _ e h => .inr (.inr (direction_fails v e h))
  unfold Options.orderingOfMap
  dsimp only
  -- Names that are not given and names that are read are followed by the directions alike.
  split
  · refine Outcome.FailsOnly.bind (Outcome.failsOnly_ok _) fun names => ?_
    split
    · exact Outcome.failsOnly_ok _
    · exact (hitems _).bind fun _ => (hdirections _).bind fun _ => Outcome.failsOnly_ok _
  · refine (hitems _).bind fun _ => Outcome.FailsOnly.bind (Outcome.failsOnly_ok _) fun names => ?_
    split
    · exact Outcome.failsOnly_ok _
    · exact (hitems _).bind fun _ => (hdirections _).bind fun _ => Outcome.failsOnly_ok _

theorem orderingOf_fails (given : Scalars) : Outcome.FailsOnly EndsOrdering (o.orderingOf given) := by
  unfold Options.orderingOf
  split
  · exact Outcome.failsOnly_ok _
  · refine Outcome.FailsOnly.bind ?_ fun _ => Outcome.failsOnly_ok _
    unfold Options.defaultOrdering
    split
    · exact Outcome.failsOnly_ok _
    · split
      · exact (orderingOfMap_fails _).map _
      · exact Outcome.failsOnly_error (.inl rfl)

/-! ### Pagination -/

/-- A replacement fails only if it is a complaint whose message cannot be written. -/
theorem failsOnly_replace (name : String) (n r : Value) {message : Except Error String}
    (h : Outcome.FailsOnly P message) : FailsOnly P (replace o name n r message) := by
  unfold replace
  split
  · exact failsOnly_bind (failsOnly_report _) fun _ => failsOnly_pure _
  · exact failsOnly_bind (failsOnly_lift h) fun _ =>
      failsOnly_bind (failsOnly_complain _ _) fun _ => failsOnly_pure _

theorem failsOnly_require (name : String) (required : Bool) (n : Value) :
    FailsOnly P (require name required n) := by
  unfold require
  split
  · exact failsOnly_complain _ _
  · exact failsOnly_pure _

theorem failsOnly_requireOrder (orderBy : Option (List String)) :
    FailsOnly P (requireOrder orderBy) := by
  unfold requireOrder
  split
  · exact failsOnly_complain _ _
  · exact failsOnly_pure _

/-- The words for a number above a greatest one cannot be written if that number cannot. -/
theorem tooGreat_fails (v : Value) :
    Outcome.FailsOnly (fun e => e = .malformed ∧ v.isWritable = false) (tooGreat v) :=
  v.written_fails.bind fun _ => Outcome.failsOnly_ok _

/-- A number of rows is compared with zero and with the greatest one, which is written where the number
is above it. -/
theorem failsOnly_size (name : String) (required : Bool) (given : Value) :
    FailsOnly (fun e => Value.Incomparable e ∨ e = .malformed ∧ o.maxLimit.isWritable = false)
      (size o name required given) := by
  have hcompare : ∀ (orEqual : Bool) (v w : Value), Outcome.FailsOnly
      (fun e => Value.Incomparable e ∨ e = .malformed ∧ o.maxLimit.isWritable = false)
        (v.precedes orEqual w) := fun orEqual v w e h => .inl (Value.precedes_fails orEqual v w e h)
  unfold size
  dsimp only
  split
  · exact failsOnly_bind (failsOnly_require _ _ _) fun _ => failsOnly_pure _
  · refine failsOnly_bind (failsOnly_lift (hcompare _ _ _)) fun low => ?_
    split
    · exact failsOnly_bind (failsOnly_replace _ _ _ (Outcome.failsOnly_ok _)) fun _ =>
        failsOnly_bind (failsOnly_require _ _ _) fun _ => failsOnly_pure _
    · split
      · exact failsOnly_pure _
      · refine failsOnly_bind (failsOnly_lift (hcompare _ _ _)) fun high => ?_
        split
        · exact failsOnly_replace _ _ _ fun e h => .inr (tooGreat_fails _ e h)
        · exact failsOnly_pure _

theorem failsOnly_atLeast (name message : String) (least given : Value)
    {tooLow : Value → Except Error Bool}
    (h : Outcome.FailsOnly P (tooLow given)) :
    FailsOnly P (atLeast o name least tooLow message given) := by
  unfold atLeast
  split
  · exact failsOnly_pure _
  · refine failsOnly_bind (failsOnly_lift h) fun low => ?_
    split
    · exact failsOnly_replace _ _ _ (Outcome.failsOnly_ok _)
    · exact failsOnly_pure _

/-- A token that is no cursor ends the check, unless it is dropped. -/
theorem failsOnly_token (name : String) (orderBy : Option (List String)) (given : Value) :
    FailsOnly (· = .invalidToken name (schema.map (·.name))) (token schema o name orderBy given) := by
  have hdrop : ∀ reason : String, FailsOnly (· = .invalidToken name (schema.map (·.name)))
      (dropToken name reason) := fun _ =>
    failsOnly_bind (failsOnly_report _) fun _ => failsOnly_pure _
  rw [token_eq]
  split
  · exact failsOnly_pure _
  · split
    · split
      · exact hdrop _
      · exact failsOnly_fail rfl
    · split
      · exact failsOnly_pure _
      · split
        · exact hdrop _
        · exact failsOnly_bind (failsOnly_complain _ _) fun _ => failsOnly_pure _

/-- The reasons for which the check of pagination ends at once. -/
def EndsPagination (schema : Option Schema) (o : Options) (e : Error) : Prop :=
  (Value.Incomparable e ∨ e = .malformed ∧ o.maxLimit.isWritable = false) ∨
    ∃ name, e = .invalidToken name (schema.map (·.name))

theorem failsOnly_parameters (orderBy : Option (List String)) (p : Pagination)
    (s : Option Strategy) :
    FailsOnly (EndsPagination schema o) (parameters schema o orderBy p s) := by
  have hsize : ∀ name required given,
      FailsOnly (EndsPagination schema o) (size o name required given) := fun _ _ _ =>
    (failsOnly_size _ _ _).imp fun _ => .inl
  have htoken : ∀ name given,
      FailsOnly (EndsPagination schema o) (token schema o name orderBy given) := fun name _ =>
    (failsOnly_token _ _ _).imp fun _ h => .inr ⟨name, h⟩
  have hlow : ∀ (orEqual : Bool) (v : Value) (k : Int),
      Outcome.FailsOnly (EndsPagination schema o) (v.precedes orEqual (.int k)) := fun _ _ _ e h =>
    .inl (.inl (Value.precedes_fails _ _ _ e h))
  unfold parameters
  split
  · exact failsOnly_bind (hsize _ _ _) fun _ => failsOnly_bind (failsOnly_requireOrder _) fun _ =>
      failsOnly_bind (htoken _ _) fun _ => failsOnly_pure _
  · exact failsOnly_bind (hsize _ _ _) fun _ => failsOnly_bind (failsOnly_requireOrder _) fun _ =>
      failsOnly_bind (htoken _ _) fun _ => failsOnly_pure _
  · exact failsOnly_bind (hsize _ _ _) fun _ =>
      failsOnly_bind (failsOnly_atLeast _ _ _ _ (hlow _ _ _)) fun _ => failsOnly_pure _
  · exact failsOnly_bind (hsize _ _ _) fun _ =>
      failsOnly_bind (failsOnly_atLeast _ _ _ _ (hlow _ _ _)) fun _ => failsOnly_pure _
  · exact failsOnly_pure _

theorem failsOnly_pagination (orderBy : Option (List String)) (p : Pagination)
    (s : Option Strategy) :
    FailsOnly (EndsPagination schema o) (pagination schema o orderBy p s) := by
  unfold pagination
  generalize (if s.isSome then (p, s) else standIn o p) = q
  obtain ⟨p, s⟩ := q
  cases s with
  | none => exact failsOnly_parameters _ _ _
  | some s =>
    dsimp only
    split
    · exact failsOnly_parameters _ _ _
    · exact failsOnly_bind (failsOnly_complain _ _) fun _ => failsOnly_pure _

/-! ### All parameters -/

/-- The reasons for which the check of all parameters ends at once. -/
inductive Ends (schema : Option Schema) (o : Options) (es : List (Value × Value)) : Error → Prop
  /-- Parameters of two strategies. -/
  | conflict {e : Error} (h : Validation.conflict (Scalars.read (admitted o es)).1.pagination = .error e) :
      Ends schema o es e
  /-- An ordering that stands in for a missing one and cannot be read. -/
  | ordering {e : Error} (h : o.orderingOf (Scalars.read (admitted o es)).1 = .error e) :
      Ends schema o es e
  /-- A list of filters with an index number beyond all integers, or a field that cannot be written. -/
  | filters {e : Error} (h : (Params.forest es).EndsCheck e) : Ends schema o es e
  /-- Limits that do not compare or cannot be written, or a token that is no cursor. -/
  | pagination {e : Error} (h : EndsPagination schema o e) : Ends schema o es e

/-- The scalars are those that are read, whatever is complained about. -/
theorem scalars_outcome {es : List (Value × Value)} {m n : Messages} {given : Scalars}
    (h : (scalars o es m).outcome = .ok (given, n)) : given = (Scalars.read es).1 := by
  rw [scalars_eq, bind_run, Traced.bind_outcome, Outcome.bind_eq_ok_iff] at h
  obtain ⟨⟨_, _⟩, _, h⟩ := h
  cases h
  rfl

/-- **A check of all parameters ends at once for one of these reasons only.** -/
theorem request_fails (es : List (Value × Value)) :
    FailsOnly (Ends schema o es) (request schema o es) := by
  intro m e h
  rw [request_eq] at h
  rcases bind_error_iff.1 h with h | ⟨given, m, hgiven, h⟩
  · exact failsOnly_scalars _ _ _ h
  rw [scalars_outcome hgiven] at h
  rcases bind_error_iff.1 h with h | ⟨used, m, _, h⟩
  · exact .conflict (failsOnly_lift (fun _ h => h) _ _ h)
  rcases bind_error_iff.1 h with h | ⟨q, m, _, h⟩
  · exact .ordering (failsOnly_order _ _ _ h)
  rcases bind_error_iff.1 h with h | ⟨fs, m, _, h⟩
  · have hfilters := Params.failsOnly_givenFilters _ _ h
    rw [Params.forest_admitted] at hfilters
    exact .filters hfilters
  rcases bind_error_iff.1 h with h | ⟨_, _, _, h⟩
  · exact .pagination (failsOnly_pagination _ _ _ _ _ h)
  · cases h

end Validation

end Sieve
