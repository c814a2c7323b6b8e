import Sieve.Proofs.Outcome
import Sieve.Selection
import Sieve.Memory

/-!
# What predicates read

A predicate is answered from the fields that it refers to and from nothing else.

* `Predicate.mem_fields_all`, `Predicate.mem_fields_any`: joined predicates refer to the fields of
  their children;
* `Operator.onRef_fields`: the predicate of an operator refers to its field alone;
* `Predicate.evaluate_congr`: rows with the same values in these fields have the same answer.
-/

namespace Sieve

namespace Predicate

/-! ### Fields of joined predicates -/

theorem mem_nodesOf {ps : List Predicate} {q : Predicate} :
    q ∈ nodesOf ps ↔ ∃ p ∈ ps, q ∈ p.nodes := by
  induction ps with
  | nil => simp [nodesOf]
  | cons p ps ih => simp [nodesOf, ih]

theorem mem_filterMap_nodesOf {ps : List Predicate} {r : FieldRef} :
    r ∈ (nodesOf ps).filterMap ref? ↔ ∃ p ∈ ps, r ∈ p.fields := by
  simp only [fields, List.mem_filterMap, mem_nodesOf]
  constructor
  · rintro ⟨q, ⟨p, hp, hq⟩, hr⟩
    exact ⟨p, hp, q, hq, hr⟩
  · rintro ⟨p, hp, q, hq, hr⟩
    exact ⟨q, ⟨p, hp, hq⟩, hr⟩

@[simp] theorem mem_fields_all {ps : List Predicate} {r : FieldRef} :
    r ∈ (Predicate.all ps).fields ↔ ∃ p ∈ ps, r ∈ p.fields := by
  rw [← mem_filterMap_nodesOf]
  simp [fields, nodes, ref?]

@[simp] theorem mem_fields_any {ps : List Predicate} {r : FieldRef} :
    r ∈ (Predicate.any ps).fields ↔ ∃ p ∈ ps, r ∈ p.fields := by
  rw [← mem_filterMap_nodesOf]
  simp [fields, nodes, ref?]

@[simp] theorem mem_fields_conjunction {ps : List Predicate} {r : FieldRef} :
    r ∈ (conjunction ps).fields ↔ ∃ p ∈ ps, r ∈ p.fields := by
  unfold conjunction
  split
  · simp
  · exact mem_fields_all

@[simp] theorem mem_fields_disjunction {ps : List Predicate} {r : FieldRef} :
    r ∈ (disjunction ps).fields ↔ ∃ p ∈ ps, r ∈ p.fields := by
  unfold disjunction
  split
  · simp
  · exact mem_fields_any

@[simp] theorem fields_const (b : Bool) : (Predicate.const b).fields = [] := rfl

@[simp] theorem fields_compare (r : FieldRef) (c : Comparison) (v : Value) :
    (Predicate.compare r c v).fields = [r] := rfl

@[simp] theorem fields_isIn (r : FieldRef) (vs : List Value) : (isIn r vs).fields = [r] := rfl

@[simp] theorem fields_isNull (r : FieldRef) : (isNull r).fields = [r] := rfl

@[simp] theorem fields_like (r : FieldRef) (p : String) (c : Bool) :
    (like r p c).fields = [r] := rfl

@[simp] theorem fields_contains (r : FieldRef) (v : Value) :
    (Predicate.contains r v).fields = [r] := rfl

end Predicate

namespace Operator

variable {ref r : FieldRef}

theorem someTerm_fields {caseSensitive : Bool} {v : Value} {p : Predicate}
    (hp : someTerm ref caseSensitive v = .ok p) (h : r ∈ p.fields) : r = ref := by
  obtain ⟨terms, _, hp⟩ := Outcome.bind_eq_ok_iff.1 hp
  cases hp
  obtain ⟨_, hterm, h⟩ := Predicate.mem_fields_disjunction.1 h
  obtain ⟨term, _, rfl⟩ := List.mem_map.1 hterm
  exact List.mem_singleton.1 h

theorem mem_fields_allFragments {ps : List Predicate} :
    r ∈ (allFragments ps).fields ↔ ∃ p ∈ ps, r ∈ p.fields := by
  unfold allFragments
  split
  · simp
  · exact Predicate.mem_fields_conjunction

theorem mem_fields_someFragment {ps : List Predicate} :
    r ∈ (someFragment ps).fields ↔ ∃ p ∈ ps, r ∈ p.fields := by
  unfold someFragment
  split
  · simp
  · exact Predicate.mem_fields_disjunction

theorem emptyPredicate_fields {t : StorageType} (h : r ∈ (emptyPredicate ref t).fields) :
    r = ref := by
  unfold emptyPredicate at h
  split at h <;> simpa using h

theorem emptiness_fields {t : StorageType} {negated : Bool} {v : Value}
    (h : r ∈ (emptiness ref t negated v).fields) : r = ref := by
  unfold emptiness at h
  split at h
  · simp at h
  · split at h
    · exact emptyPredicate_fields h
    · rw [Predicate.fields_not] at h
      exact emptyPredicate_fields h

theorem noneOf_fields {vs : List Value} (h : r ∈ (noneOf ref vs).fields) : r = ref := by
  unfold noneOf at h
  dsimp only at h
  split at h <;> simpa [Predicate.and] using h

/-- The predicates of the words of a search. -/
theorem terms_fields {v : Value} {caseSensitive : Bool} {join : List Predicate → Predicate}
    (hjoin : ∀ ps, r ∈ (join ps).fields → ∃ p ∈ ps, r ∈ p.fields) {p : Predicate}
    (hp : (do .ok (join ((← v.searchTerms).map (termPredicate ref caseSensitive)))) =
      (.ok p : Except Error Predicate)) (h : r ∈ p.fields) : r = ref := by
  obtain ⟨terms, _, hp⟩ := Outcome.bind_eq_ok_iff.1 hp
  cases hp
  obtain ⟨q, hq, h⟩ := hjoin _ h
  obtain ⟨term, _, rfl⟩ := List.mem_map.1 hq
  exact List.mem_singleton.1 h

/-- The predicate of an operator refers to its field alone. -/
theorem onRef_fields {op : Operator} {t : StorageType} {v : Value} {p : Predicate}
    (hp : op.onRef ref t v = .ok p) (h : r ∈ p.fields) : r = ref := by
  cases op <;> simp only [onRef] at hp
  case eq | ne | lt | le | gt | ge | contains =>
    cases hp
    exact List.mem_singleton.1 h
  case notContains =>
    cases hp
    simpa using h
  case isIn =>
    obtain ⟨vs, _, hp⟩ := Outcome.bind_eq_ok_iff.1 hp
    cases hp
    exact List.mem_singleton.1 h
  case notIn =>
    obtain ⟨vs, _, hp⟩ := Outcome.bind_eq_ok_iff.1 hp
    cases hp
    exact noneOf_fields h
  case like | ilike | search => exact someTerm_fields hp h
  case notLike | notIlike =>
    obtain ⟨q, hq, hp⟩ := Outcome.bind_eq_ok_iff.1 hp
    cases hp
    rw [Predicate.fields_not] at h
    exact someTerm_fields hq h
  case likeAnd | ilikeAnd => exact terms_fields (fun _ => mem_fields_allFragments.1) hp h
  case likeOr | ilikeOr => exact terms_fields (fun _ => mem_fields_someFragment.1) hp h
  case empty | notEmpty =>
    cases hp
    exact emptiness_fields h

end Operator

/-! ### Answers -/

namespace Predicate

variable {aliases : Aliases} {a b : Value}

mutual

/-- **Rows with the same values in the fields of a predicate have the same answer.** -/
theorem evaluate_congr {p : Predicate}
    (h : ∀ r ∈ p.fields, r.read aliases a = r.read aliases b) :
    evaluate aliases a p = evaluate aliases b p := by
  match p with
  | .const _ | .oddConst _ | .bare => rfl
  | .all ps =>
    unfold evaluate
    rw [evaluateEach_congr fun p hp r hr => h r (mem_fields_all.2 ⟨p, hp, hr⟩)]
  | .any ps =>
    unfold evaluate
    rw [evaluateEach_congr fun p hp r hr => h r (mem_fields_any.2 ⟨p, hp, hr⟩)]
  | .not p =>
    rw [fields_not] at h
    unfold evaluate
    rw [evaluate_congr h]
  | .compare r _ _ | .oddCompare r _ _ | .isIn r _ | .isNull r | .like r _ _ | .oddLike r _ _
  | .contains r _ | .foreign _ r =>
    unfold evaluate
    rw [h r (List.mem_singleton.2 rfl)]

theorem evaluateEach_congr {constant : Value → Except Error Truth} {ps : List Predicate}
    (h : ∀ p ∈ ps, ∀ r ∈ p.fields, r.read aliases a = r.read aliases b) :
    evaluateEach aliases a constant ps = evaluateEach aliases b constant ps := by
  match ps with
  | [] => rfl
  | p :: ps =>
    have hp := evaluate_congr (h p (by simp))
    have hps : evaluateEach aliases a constant ps = evaluateEach aliases b constant ps :=
      evaluateEach_congr fun q hq => h q (List.mem_cons_of_mem _ hq)
    cases p <;> simp only [evaluateEach, hp, hps]

end

/-- A predicate that is no odd constant is answered among others as by itself. -/
theorem evaluateEach_cons {constant : Value → Except Error Truth} {p : Predicate}
    {ps : List Predicate} (hp : ∀ v, p ≠ .oddConst v) :
    evaluateEach aliases a constant (p :: ps) = do
      let t ← evaluate aliases a p
      let ts ← evaluateEach aliases a constant ps
      return t :: ts := by
  cases p with
  | oddConst v => exact absurd rfl (hp v)
  | _ => rw [evaluateEach]; simp

theorem evaluate_all_two {p q : Predicate} {t u : Truth} (hp : evaluate aliases a p = .ok t)
    (hq : evaluate aliases a q = .ok u) (hp' : ∀ v, p ≠ .oddConst v) (hq' : ∀ v, q ≠ .oddConst v) :
    evaluate aliases a (.all [p, q]) = .ok (.all [t, u]) := by
  rw [evaluate, evaluateEach_cons hp', evaluateEach_cons hq', hp, hq]
  rfl

theorem evaluate_any_two {p q : Predicate} {t u : Truth} (hp : evaluate aliases a p = .ok t)
    (hq : evaluate aliases a q = .ok u) (hp' : ∀ v, p ≠ .oddConst v) (hq' : ∀ v, q ≠ .oddConst v) :
    evaluate aliases a (.any [p, q]) = .ok (.any [t, u]) := by
  rw [evaluate, evaluateEach_cons hp', evaluateEach_cons hq', hp, hq]
  rfl

theorem selects_congr {p : Predicate} (h : ∀ r ∈ p.fields, r.read aliases a = r.read aliases b) :
    selects aliases p a = selects aliases p b := by
  unfold selects answer
  split
  · rfl
  · rw [evaluate_congr h]

end Predicate

end Sieve
