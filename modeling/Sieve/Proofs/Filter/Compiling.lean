import Sieve.Proofs.Predicate
import Sieve.Proofs.Schema.Members
import Sieve.Proofs.Value.Stored

/-!
# Compiling filters

The filter of a field becomes a predicate on the fields that the field stands for. This works for values
of the form that the operator takes, as long as the field can be expanded and no custom field is
found on the way.

* `Operator.Takes`: values of the form that an operator takes, as coercion makes them
  (`Operator.takes_of_coerce`);
* `Field.selectWithin_found`: a predicate refers to the fields that its field stands for;
* `Field.select_ok`: fields with such values are selected by;
* `Filter.conditions`: the conditions in a filter; a filter is compiled if its conditions are, and fails
  like the first one that fails.
-/

namespace Sieve

open Traced

/-! ### Operators -/

namespace Operator

/-- The value has the form that the operator takes: alternatives have items, the words of a text and
the terms that are given have texts. -/
structure Takes (op : Operator) (v : Value) : Prop where
  items : op.takesList = true → ∃ xs, v.items = .ok xs
  given : op.isSubstring = true → ∃ ts, givenTerms v = .ok ts
  terms : op.isMultiTerm = true → ∃ ts, v.searchTerms = .ok ts

/-- The operator makes a predicate of a value of its form. -/
theorem onRef_ok {op : Operator} {v : Value} (h : op.Takes v) (ref : FieldRef) (t : StorageType) :
    ∃ p, op.onRef ref t v = .ok p := by
  cases op
  case isIn | notIn =>
    obtain ⟨xs, hxs⟩ := h.items rfl
    exact ⟨_, by rw [onRef, hxs]; rfl⟩
  case like | notLike | ilike | notIlike | search =>
    obtain ⟨ts, hts⟩ := h.given rfl
    exact ⟨_, by rw [onRef, someTerm, hts]; rfl⟩
  case likeAnd | likeOr | ilikeAnd | ilikeOr =>
    obtain ⟨ts, hts⟩ := h.terms rfl
    exact ⟨_, by rw [onRef, hts]; rfl⟩
  all_goals exact ⟨_, rfl⟩

/-- Other operators take any value. -/
theorem takes_other {op : Operator} (hlist : op.takesList = false)
    (hgiven : op.isSubstring = false) (hterm : op.isMultiTerm = false) (v : Value) : op.Takes v :=
  ⟨fun h => absurd h (by simp [hlist]), fun h => absurd h (by simp [hgiven]),
    fun h => absurd h (by simp [hterm])⟩

theorem givenTerms_texts (ss : List RawText) :
    givenTerms (.list (ss.map .ofRaw)) = .ok (ss.map fun s => (Value.ofRaw s).render) := by
  have hwritten : List.Forall₂ (fun v t => Value.written v = .ok t) (ss.map .ofRaw)
      (ss.map fun s => (Value.ofRaw s).render) := by
    rw [List.forall₂_map_left_iff, List.forall₂_map_right_iff, List.forall₂_same]
    exact fun s _ => Value.written_ofRaw s
  exact Outcome.mapM_eq_ok_iff.2 hwritten

theorem givenTerms_ofRaw (s : RawText) : givenTerms (.ofRaw s) = .ok [(Value.ofRaw s).render] := by
  have hwritten := Value.written_ofRaw s
  cases s <;> simp_all [givenTerms, Value.ofRaw, Value.sequence?]

/-- The operator that looks for one word takes any word. -/
theorem takes_single {op : Operator} (h : op.isMultiTerm = true) (term : String) :
    op.single.Takes (.text term) := by
  have hgiven : ∃ ts, givenTerms (.text term) = .ok ts := ⟨_, givenTerms_ofRaw (.whole term)⟩
  cases op <;> first | exact absurd h Bool.false_ne_true | exact ⟨nofun, fun _ => hgiven, nofun⟩

/-- What terms are converted to is looked for as given or word by word. -/
theorem terms_of_coerceTerms {v w : Value} (h : coerceTerms v = .ok w) :
    (∃ ts, givenTerms w = .ok ts) ∧ ∃ ts, w.searchTerms = .ok ts := by
  rcases texts_of_coerceTerms h with ⟨s, rfl⟩ | ⟨ss, rfl⟩
  · refine ⟨⟨_, givenTerms_ofRaw s⟩, ?_⟩
    cases s <;> exact ⟨_, rfl⟩
  · exact ⟨⟨_, givenTerms_texts ss⟩, _, givenTerms_texts ss⟩

/-- **What a value is converted to has the form that the operator takes.** -/
theorem takes_of_coerce {op : Operator} {t : StorageType} {v w : Value}
    (h : op.coerce t v = .ok w) (hw : w.isNull = false) : op.Takes w := by
  unfold coerce at h
  split at h
  · next hgiven =>
    cases h
    rw [hw, Bool.false_or] at hgiven
    cases op <;> first | exact takes_other rfl rfl rfl v | cases hgiven
  split at h
  · next hlist =>
    split at h
    · obtain ⟨ys, _, h⟩ := Outcome.bind_eq_ok_iff.1 h
      cases h
      cases op <;> first
        | exact absurd hlist Bool.false_ne_true
        | exact ⟨fun _ => ⟨ys, rfl⟩, nofun, nofun⟩
    · cases h
  next hnolist =>
  split at h
  · obtain ⟨hgiven, hterms⟩ := terms_of_coerceTerms h
    exact ⟨fun hlist => absurd hlist hnolist, fun _ => hgiven, fun _ => hterms⟩
  next hnoterm =>
  have hsubstring : op.isSubstring ≠ true := fun hop => hnoterm (by simp [hop])
  have hmulti : op.isMultiTerm ≠ true := fun hop => hnoterm (by simp [hop])
  exact ⟨fun hlist => absurd hlist hnolist, fun hop => absurd hop hsubstring,
    fun hop => absurd hop hmulti⟩

end Operator

/-! ### Fields -/

namespace Schema

/-- Members of composites with names of the given kind have names of that kind. -/
def Closed (s : Schema) (N : String → Prop) : Prop :=
  ∀ n m, N n → s.Member n m → N m

/-- The reference leads to a field with a name of the given kind. -/
def FoundIn (s : Schema) (N : String → Prop) (r : FieldRef) : Prop :=
  ∃ n f, N n ∧ s.get? n = some f ∧ f.ref? = some r

end Schema

namespace Field

variable {s : Schema} {N : String → Prop} {n : String} {f : Field}

/-- Selecting by a field that is found on its own. -/
def selectFound (op : Operator) (v : Value) (f : Field) : Traced Predicate := do
  let ref ← Traced.lift f.ref
  Traced.lift (op.onRef ref f.type v)

theorem selectFound_found (op : Operator) (v : Value) (hn : N n) (hf : s.get? n = some f) :
    Yields (∀ r ∈ ·.fields, s.FoundIn N r) (selectFound op v f) := by
  refine yields_bind (P := fun found => f.ref? = some found)
    (fun found h => ref_eq_ok_iff.1 h) fun found h p hp r hr => ?_
  rw [Operator.onRef_fields hp hr]
  exact ⟨n, f, hn, hf, h⟩

/-- **A predicate refers to the fields that its field stands for.** -/
theorem selectWithin_found (hN : s.Closed N) (policy : CompositePolicy) (op : Operator) (v : Value)
    (depth : Nat) (hn : N n) (hf : s.get? n = some f) :
    Yields (∀ r ∈ ·.fields, s.FoundIn N r) (selectWithin (some s) policy op v f depth) := by
  induction depth generalizing policy op v n f with
  | zero => exact yields_fail _
  | succ depth ih =>
    cases f with
    | plain | isAlias | join => exact selectFound_found op v hn hf
    | custom => exact yields_fail _
    | composite name members =>
      unfold selectWithin
      dsimp only
      split
      · split
        · exact yields_fail _
        · exact yields_after fun _ => yields_pure (by simp)
      · refine yields_bind (P := fun fields => ∀ g ∈ fields, ∃ m, N m ∧ s.get? m = some g)
          ?_ fun fields hfields => ?_
        · refine yields_mapM fun m hm => yields_lift fun g hg => ?_
          exact ⟨m, hN n m hn ⟨_, _, hf, hm⟩, Schema.resolve_eq_ok_iff.1 hg⟩
        · have heach : ∀ (op : Operator) (v : Value),
              Yields (∀ p ∈ ·, ∀ r ∈ p.fields, s.FoundIn N r)
                (fields.mapM fun g => selectWithin (some s) .warn op v g depth) :=
            fun op v => yields_mapM fun g hg =>
              have ⟨m, hm, hgm⟩ := hfields g hg
              ih .warn op v hm hgm
          split
          · refine yields_after fun terms => ?_
            refine yields_bind (P := fun ps => ∀ p ∈ ps, ∀ r ∈ p.fields, s.FoundIn N r)
              ?_ fun ps hps => ?_
            · refine yields_mapM fun term _ => yields_bind (heach _ _) fun ps hps => ?_
              refine yields_pure fun r hr => ?_
              obtain ⟨p, hp, hr⟩ := Predicate.mem_fields_disjunction.1 hr
              exact hps p hp r hr
            · refine yields_pure fun r hr => ?_
              split at hr
              · obtain ⟨p, hp, hr⟩ := Operator.mem_fields_allFragments.1 hr
                exact hps p hp r hr
              · obtain ⟨p, hp, hr⟩ := Operator.mem_fields_someFragment.1 hr
                exact hps p hp r hr
          · refine yields_bind (heach _ _) fun ps hps => yields_pure fun r hr => ?_
            split at hr
            · obtain ⟨p, hp, hr⟩ := Predicate.mem_fields_conjunction.1 hr
              exact hps p hp r hr
            · obtain ⟨p, hp, hr⟩ := Predicate.mem_fields_disjunction.1 hr
              exact hps p hp r hr

theorem selectFound_ok {op : Operator} {v : Value} (hop : op.Takes v) (hf : f.ref?.isSome = true) :
    ∃ p, (selectFound op v f).outcome = .ok p := by
  obtain ⟨r, hr⟩ := Option.isSome_iff_exists.1 hf
  rw [selectFound, bind_outcome, lift_outcome, ref_eq_ok_iff.2 hr, Outcome.ok_bind]
  exact Operator.onRef_ok hop r f.type

/-- A composite is selected by if its members are, and the operator is admitted. -/
theorem selectWithin_composite_ok {name : String} {members : List String} {fields : List Field}
    {policy : CompositePolicy} {op : Operator} {v : Value} {depth : Nat} (hop : op.Takes v)
    (hpolicy : op.refusesComposite = true → policy ≠ .refuse)
    (hfields : members.mapM (resolveField (some s)) = .ok fields)
    (heach : ∀ (op : Operator) (v : Value), op.Takes v →
      ∃ ps, (fields.mapM fun g => selectWithin (some s) .warn op v g depth).outcome = .ok ps) :
    ∃ p, (selectWithin (some s) policy op v (.composite name members) (depth + 1)).outcome = .ok p := by
  unfold selectWithin
  dsimp only
  split
  · next hrefused =>
    rw [if_neg (hpolicy hrefused)]
    exact ⟨_, rfl⟩
  · rw [bind_outcome, mapM_outcome]
    simp only [lift_outcome, hfields, Outcome.ok_bind]
    split
    · next hmulti =>
      obtain ⟨terms, hterms⟩ := hop.terms hmulti
      rw [bind_outcome, lift_outcome, hterms, Outcome.ok_bind, bind_outcome, mapM_outcome]
      have hall : ∃ ps, (terms.mapM fun term => (do
          return Predicate.disjunction (← fields.mapM fun g =>
            selectWithin (some s) .warn op.single (.text term) g depth) :
              Traced Predicate).outcome) = .ok ps := by
        refine Outcome.exists_mapM_ok fun term _ => ?_
        obtain ⟨ps, hps⟩ := heach op.single (.text term) (Operator.takes_single hmulti _)
        exact ⟨_, by rw [bind_outcome, hps]; rfl⟩
      obtain ⟨ps, hps⟩ := hall
      rw [hps]
      exact ⟨_, rfl⟩
    · obtain ⟨ps, hps⟩ := heach op v hop
      rw [bind_outcome, hps]
      exact ⟨_, rfl⟩

/-- Fields are selected by if they can be expanded as deep as there are levels, none of those they
stand for is a custom field, and the operator is admitted for composites. -/
theorem selectWithin_ok (hc : s.Checked) (hs : s.Acyclic) (hN : s.Closed N)
    (hcustom : ∀ n f, N n → s.get? n = some f → f.kind ≠ .custom) {policy : CompositePolicy}
    {op : Operator} {v : Value} (hop : op.Takes v) (hn : N n) (hf : s.get? n = some f)
    (hpolicy : f.kind = .composite → op.refusesComposite = true → policy ≠ .refuse) {depth : Nat}
    (hdepth : s.height n < depth) :
    ∃ p, (selectWithin (some s) policy op v f depth).outcome = .ok p := by
  induction depth generalizing policy op v n f with
  | zero => exact absurd hdepth (Nat.not_lt_zero _)
  | succ depth ih =>
    cases f with
    | plain | isAlias | join => exact selectFound_ok hop rfl
    | custom => exact absurd rfl (hcustom n _ hn hf)
    | composite name members =>
      -- Members are found, and lower than the composite.
      have hmember : ∀ m ∈ members, ∃ g, s.get? m = some g ∧ s.height m < depth := by
        intro m hm
        have hnm : s.Member n m := ⟨_, _, hf, hm⟩
        obtain ⟨g, hg⟩ := hc.member n m hnm
        have hlt := Schema.height_lt hs hnm hg
        exact ⟨g, hg, by omega⟩
      have hresolve : ∃ fields, members.mapM (resolveField (some s)) = .ok fields := by
        refine Outcome.exists_mapM_ok fun m hm => ?_
        obtain ⟨g, hg, _⟩ := hmember m hm
        exact ⟨g, Schema.resolve_eq_ok_iff.2 hg⟩
      obtain ⟨fields, hfields⟩ := hresolve
      refine selectWithin_composite_ok hop (hpolicy rfl) hfields fun op v hop => ?_
      rw [mapM_outcome]
      refine Outcome.exists_mapM_ok fun g hg => ?_
      obtain ⟨m, hm, hgm⟩ := Outcome.exists_of_mem_mapM hfields hg
      obtain ⟨_, _, hlow⟩ := hmember m hm
      exact ih hop (hN n m hn ⟨_, _, hf, hm⟩) (Schema.resolve_eq_ok_iff.1 hgm) nofun hlow

/-- **A field is selected by** if it can be expanded, it stands for no custom field, and the operator
is admitted for composites. -/
theorem select_ok (hc : s.Checked) (hs : s.Acyclic) (hN : s.Closed N)
    (hcustom : ∀ n f, N n → s.get? n = some f → f.kind ≠ .custom) {policy : CompositePolicy}
    {op : Operator} {v : Value} (hop : op.Takes v) (hn : N n) (hf : s.get? n = some f)
    (hpolicy : f.kind = .composite → op.refusesComposite = true → policy ≠ .refuse) :
    ∃ p, (select (some s) policy op v f).outcome = .ok p := by
  refine selectWithin_ok hc hs hN hcustom hop hn hf hpolicy ?_
  have hle := s.height_le n
  simp only [levels, Option.map_some, Option.getD_some]
  omega

end Field

/-! ### Filters -/

namespace Filter

mutual

/-- The conditions in a filter, at any depth of groups. -/
def conditions : Filter → List Condition
  | condition c => [c]
  | group _ fs => conditionsOf fs

/-- The conditions in some filters. -/
def conditionsOf : List Filter → List Condition
  | [] => []
  | f :: fs => conditions f ++ conditionsOf fs

end

variable {t : Setting} {R : FieldRef → Prop} {P : Error → Prop}

mutual

theorem select_yields {f : Filter}
    (h : ∀ c ∈ f.conditions, Yields (∀ r ∈ ·.fields, R r) (selectCondition t c)) :
    Yields (∀ r ∈ ·.fields, R r) (select t f) := by
  match f with
  | condition c => exact h c (by simp [conditions])
  | group k fs =>
    unfold select
    refine yields_bind (selectEach_yields h) fun ps hps => yields_pure fun r hr => ?_
    split at hr
    · obtain ⟨p, hp, hr⟩ := Predicate.mem_fields_all.1 hr
      exact hps p hp r hr
    · obtain ⟨p, hp, hr⟩ := Predicate.mem_fields_any.1 hr
      exact hps p hp r hr

theorem selectEach_yields {fs : List Filter}
    (h : ∀ c ∈ conditionsOf fs, Yields (∀ r ∈ ·.fields, R r) (selectCondition t c)) :
    Yields (∀ p ∈ ·, ∀ r ∈ p.fields, R r) (selectEach t fs) := by
  match fs with
  | [] => exact yields_pure (by simp)
  | f :: fs =>
    unfold selectEach
    refine yields_bind (select_yields fun c hc => h c (List.mem_append_left _ hc)) fun p hp => ?_
    refine yields_bind (selectEach_yields fun c hc => h c (List.mem_append_right _ hc))
      fun ps hps => yields_pure fun q hq => ?_
    rcases List.mem_cons.1 hq with rfl | hq
    · exact hp
    · exact hps q hq

end

/-- What filters refer to, their conditions do. -/
theorem selectAll_yields {fs : List Filter}
    (h : ∀ c ∈ conditionsOf fs, Yields (∀ r ∈ ·.fields, R r) (selectCondition t c)) :
    Yields (∀ r ∈ ·.fields, R r) (selectAll t fs) := by
  refine yields_bind (selectEach_yields h) fun ps hps => yields_pure fun r hr => ?_
  obtain ⟨p, hp, hr⟩ := Predicate.mem_fields_all.1 hr
  exact hps p hp r hr

mutual

theorem select_failsOnly {f : Filter}
    (h : ∀ c ∈ f.conditions, Outcome.FailsOnly P (selectCondition t c).outcome) :
    Outcome.FailsOnly P (select t f).outcome := by
  match f with
  | condition c => exact h c (by simp [conditions])
  | group k fs =>
    unfold select
    rw [bind_outcome]
    exact (selectEach_failsOnly h).bind fun ps => Outcome.failsOnly_ok _

theorem selectEach_failsOnly {fs : List Filter}
    (h : ∀ c ∈ conditionsOf fs, Outcome.FailsOnly P (selectCondition t c).outcome) :
    Outcome.FailsOnly P (selectEach t fs).outcome := by
  match fs with
  | [] => exact Outcome.failsOnly_ok _
  | f :: fs =>
    unfold selectEach
    rw [bind_outcome]
    refine (select_failsOnly fun c hc => h c (List.mem_append_left _ hc)).bind fun p => ?_
    rw [bind_outcome]
    exact (selectEach_failsOnly fun c hc => h c (List.mem_append_right _ hc)).bind fun ps =>
      Outcome.failsOnly_ok _

end

/-- Filters fail like one of their conditions. -/
theorem selectAll_failsOnly {fs : List Filter}
    (h : ∀ c ∈ conditionsOf fs, Outcome.FailsOnly P (selectCondition t c).outcome) :
    Outcome.FailsOnly P (selectAll t fs).outcome := by
  unfold selectAll
  rw [bind_outcome]
  exact (selectEach_failsOnly h).bind fun ps => Outcome.failsOnly_ok _

mutual

theorem conditions_ok_of_select {f : Filter} {p : Predicate} (h : (select t f).outcome = .ok p) :
    ∀ c ∈ f.conditions, ∃ q, (selectCondition t c).outcome = .ok q := by
  match f with
  | condition c =>
    intro d hd
    rw [conditions, List.mem_singleton] at hd
    rw [hd]
    exact ⟨p, h⟩
  | group k fs =>
    unfold select at h
    rw [bind_outcome] at h
    obtain ⟨ps, hps, _⟩ := Outcome.bind_eq_ok_iff.1 h
    exact conditions_ok_of_selectEach hps

theorem conditions_ok_of_selectEach {fs : List Filter} {ps : List Predicate}
    (h : (selectEach t fs).outcome = .ok ps) :
    ∀ c ∈ conditionsOf fs, ∃ q, (selectCondition t c).outcome = .ok q := by
  match fs with
  | [] => simp [conditionsOf]
  | f :: fs =>
    unfold selectEach at h
    rw [bind_outcome] at h
    obtain ⟨p, hp, h⟩ := Outcome.bind_eq_ok_iff.1 h
    rw [bind_outcome] at h
    obtain ⟨qs, hqs, _⟩ := Outcome.bind_eq_ok_iff.1 h
    intro c hc
    rcases List.mem_append.1 hc with hc | hc
    · exact conditions_ok_of_select hp c hc
    · exact conditions_ok_of_selectEach hqs c hc

end

/-- Filters are compiled if and only if all their conditions are. -/
theorem selectAll_ok_iff {fs : List Filter} :
    (∃ p, (selectAll t fs).outcome = .ok p) ↔
      ∀ c ∈ conditionsOf fs, ∃ q, (selectCondition t c).outcome = .ok q := by
  constructor
  · rintro ⟨p, h⟩
    unfold selectAll at h
    rw [bind_outcome] at h
    obtain ⟨ps, hps, _⟩ := Outcome.bind_eq_ok_iff.1 h
    exact conditions_ok_of_selectEach hps
  · intro h
    have hno : Outcome.FailsOnly (fun _ => False) (selectAll t fs).outcome :=
      selectAll_failsOnly fun c hc e he => by
        obtain ⟨q, hq⟩ := h c hc
        cases hq.symm.trans he
    cases ho : (selectAll t fs).outcome with
    | ok p => exact ⟨p, rfl⟩
    | error e => exact (hno e ho).elim

end Filter

end Sieve
