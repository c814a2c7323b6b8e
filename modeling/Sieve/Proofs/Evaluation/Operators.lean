import Sieve.Proofs.Evaluation.Held
import Sieve.Proofs.Filter.Compiling

/-!
# Answers to filter operators

The predicate that an operator makes of a field is answered on every row, unless the value of the row
clashes with that of the filter: the two have no order, or one is looked up where that cannot be done.

* `Predicate.Answered`: the predicate has an answer on a row;
* `Predicate.answered_all_iff`, `Predicate.answered_any_iff`: joined predicates are answered if their
  parts are;
* `Operator.Clashes`: why an operator has no answer for two values;
* `Operator.onRef_answered_iff`: the predicate of an operator is answered unless the values clash.
-/

namespace Sieve

open Outcome

namespace Predicate

/-- The predicate has an answer on the row. -/
def Answered (aliases : Aliases) (row : Value) (p : Predicate) : Prop :=
  ∃ t, p.evaluate aliases row = .ok t

/-- The predicate is no constant that is no truth value. -/
def Proper (p : Predicate) : Prop :=
  ∀ v, p ≠ .oddConst v

/-- The predicate is proper and has an answer on the row. -/
abbrev Sure (aliases : Aliases) (row : Value) (p : Predicate) : Prop :=
  p.Proper ∧ p.Answered aliases row

variable {aliases : Aliases} {row x v : Value} {ref : FieldRef} {p q : Predicate}
  {ps : List Predicate}

theorem proper_const (b : Bool) : (const b).Proper := nofun

theorem proper_compare (ref : FieldRef) (c : Comparison) (v : Value) : (compare ref c v).Proper := nofun

theorem proper_isIn (ref : FieldRef) (vs : List Value) : (isIn ref vs).Proper := nofun

theorem proper_isNull (ref : FieldRef) : (isNull ref).Proper := nofun

theorem proper_like (ref : FieldRef) (pattern : String) (caseSensitive : Bool) :
    (like ref pattern caseSensitive).Proper := nofun

theorem proper_contains (ref : FieldRef) (v : Value) : (contains ref v).Proper := nofun

theorem proper_not (p : Predicate) : (not p).Proper := nofun

theorem proper_and (p q : Predicate) : (p.and q).Proper := nofun

theorem proper_or (p q : Predicate) : (p.or q).Proper := nofun

theorem proper_conjunction (hps : ∀ p ∈ ps, p.Proper) : (conjunction ps).Proper := by
  unfold conjunction
  split
  · exact hps _ (by simp)
  · nofun

theorem proper_disjunction (hps : ∀ p ∈ ps, p.Proper) : (disjunction ps).Proper := by
  unfold disjunction
  split
  · exact hps _ (by simp)
  · nofun

/-! ### Joined predicates -/

theorem evaluateEach_ok_iff (constant : Value → Except Error Truth) (hps : ∀ p ∈ ps, p.Proper) :
    (∃ ts, evaluateEach aliases row constant ps = .ok ts) ↔ ∀ p ∈ ps, p.Answered aliases row := by
  induction ps with
  | nil => exact ⟨fun _ => nofun, fun _ => ⟨[], rfl⟩⟩
  | cons p ps ih =>
    have ih := ih fun q hq => hps q (List.mem_cons_of_mem _ hq)
    rw [evaluateEach_cons (hps p (by simp)), List.forall_mem_cons, ← ih]
    constructor
    · rintro ⟨_, h⟩
      obtain ⟨t, ht, h⟩ := bind_eq_ok_iff.1 h
      obtain ⟨ts, hts, _⟩ := bind_eq_ok_iff.1 h
      exact ⟨⟨t, ht⟩, ts, hts⟩
    · rintro ⟨⟨t, ht⟩, ts, hts⟩
      exact ⟨t :: ts, by rw [ht, ok_bind, hts]; rfl⟩

theorem exists_bind_ok_iff {α β : Type} {y : Except Error α} {f : α → β} :
    (∃ b, (do return f (← y) : Except Error β) = .ok b) ↔ ∃ a, y = .ok a := by
  cases y <;> simp

/-- All hold or not if each one is answered. -/
theorem answered_all_iff (hps : ∀ p ∈ ps, p.Proper) :
    (Predicate.all ps).Answered aliases row ↔ ∀ p ∈ ps, p.Answered aliases row := by
  rw [← evaluateEach_ok_iff oddConjunct hps, Answered, evaluate]
  exact exists_bind_ok_iff

/-- Some holds or not if each one is answered. -/
theorem answered_any_iff (hps : ∀ p ∈ ps, p.Proper) :
    (Predicate.any ps).Answered aliases row ↔ ∀ p ∈ ps, p.Answered aliases row := by
  rw [← evaluateEach_ok_iff oddDisjunct hps, Answered, evaluate]
  exact exists_bind_ok_iff

theorem answered_conjunction_iff (hps : ∀ p ∈ ps, p.Proper) :
    (conjunction ps).Answered aliases row ↔ ∀ p ∈ ps, p.Answered aliases row := by
  unfold conjunction
  split
  · simp
  · exact answered_all_iff hps

theorem answered_disjunction_iff (hps : ∀ p ∈ ps, p.Proper) :
    (disjunction ps).Answered aliases row ↔ ∀ p ∈ ps, p.Answered aliases row := by
  unfold disjunction
  split
  · simp
  · exact answered_any_iff hps

theorem answered_and_iff (hp : p.Proper) (hq : q.Proper) :
    (p.and q).Answered aliases row ↔ p.Answered aliases row ∧ q.Answered aliases row := by
  rw [and, answered_all_iff (by simp [hp, hq])]
  simp

theorem answered_or_iff (hp : p.Proper) (hq : q.Proper) :
    (p.or q).Answered aliases row ↔ p.Answered aliases row ∧ q.Answered aliases row := by
  rw [or, answered_any_iff (by simp [hp, hq])]
  simp

@[simp] theorem answered_not_iff : (not p).Answered aliases row ↔ p.Answered aliases row := by
  rw [Answered, evaluate]
  exact exists_bind_ok_iff

@[simp] theorem answered_const (b : Bool) : (const b).Answered aliases row :=
  ⟨some b, rfl⟩

/-! ### Tests of a field -/

/-- A test of a field is answered if the row has null there, or the test succeeds. -/
theorem unlessNull_ok_iff {test : Value → Except Error Truth} (hx : ref.read aliases row = .ok x) :
    (∃ t, (do unlessNull (← ref.read aliases row) test) = .ok t) ↔ x = .null ∨ ∃ t, test x = .ok t := by
  rw [hx, ok_bind, unlessNull]
  split
  · next hnull => exact ⟨fun _ => .inl (Value.isNull_iff.1 hnull), fun _ => ⟨none, rfl⟩⟩
  · next hgiven => exact ⟨.inr, fun h => h.resolve_left (mt Value.isNull_iff.2 hgiven)⟩

theorem answered_compare_iff {c : Comparison} (hx : ref.read aliases row = .ok x) :
    (compare ref c v).Answered aliases row ↔ x = .null ∨ ∃ b, c.holds x v = .ok b := by
  rw [Answered, evaluate, unlessNull_ok_iff hx, exists_bind_ok_iff]

theorem answered_isIn_iff {vs : List Value} (hx : ref.read aliases row = .ok x) :
    (isIn ref vs).Answered aliases row ↔ x = .null ∨ ∃ b, x.member? vs = .ok b := by
  rw [Answered, evaluate, unlessNull_ok_iff hx]
  refine or_congr_right ?_
  unfold amongValues
  cases x.member? vs with
  | error e => simp
  | ok b => cases b <;> simp

theorem answered_contains_iff (hx : ref.read aliases row = .ok x) :
    (contains ref v).Answered aliases row ↔ x = .null ∨ ∃ b, x.contains v = .ok b := by
  rw [Answered, evaluate, unlessNull_ok_iff hx, exists_bind_ok_iff]

/-- A text is compared with a pattern, and so is what can be written as one. -/
theorem answered_like_iff (pattern : String) (caseSensitive : Bool)
    (hx : ref.read aliases row = .ok x) :
    (like ref pattern caseSensitive).Answered aliases row ↔ x = .null ∨ x.isWritable = true := by
  rw [Answered, evaluate, unlessNull_ok_iff hx, exists_bind_ok_iff, matchText]
  refine or_congr_right (exists_bind_ok_iff.trans ?_)
  simp [Value.written_eq_ok_iff]

theorem answered_isNull (hx : ref.read aliases row = .ok x) : (isNull ref).Answered aliases row := by
  rw [Answered, evaluate, hx]
  exact ⟨_, rfl⟩

end Predicate

namespace Operator

open Predicate (Sure)

variable {aliases : Aliases} {row x v : Value} {ref : FieldRef} {t : StorageType} {op : Operator}
  {p : Predicate}

/-- Why an operator has no answer for the value of a row and that of a filter: the latter has no order, or
it signals, or one that signals is met in a list before an equal one, or something is looked up that is not
text in text, or a term is searched for in an integer with too many digits to be written. Emptiness is asked
for without a clash. -/
def Clashes (x v : Value) : Operator → Prop
  | lt | le | gt | ge => v.Unordered
  | eq | ne => v.Signals
  | isIn | notIn => ∃ vs, v = .list vs ∧ x.MeetsSignal vs
  | contains | notContains => ¬∃ s n : RawText, x = .ofRaw s ∧ v = .ofRaw n
  | like | notLike | ilike | notIlike | search => x.isWritable = false ∧ givenTerms v ≠ .ok []
  | likeAnd | likeOr | ilikeAnd | ilikeOr => x.isWritable = false ∧ v.searchTerms ≠ .ok []
  | empty | notEmpty => False

/-! ### Values of filters -/

/-- A single value that is compared with a value that is held is of the same type. -/
theorem stores_of_coerce {raw : Value} (hx : t.Holds x)
    (hop : (op.isEmptiness || op.takesList || (op.isSubstring || op.isMultiTerm) ||
      op.isMembership) = false)
    (h : op.coerce t raw = .ok v) (hv : v.isNull = false) : t.Stores v := by
  cases fits_of_coerce h with
  | null => cases hv
  | value _ _ hstores => exact hstores
  | collection _ ht => rcases ht with rfl | rfl <;> cases hx
  | flag hgroup | alternatives hgroup | term hgroup | terms hgroup | item hgroup =>
    simp [hgroup] at hop

/-- The alternatives of a list are nulls and values of the type of the field. -/
theorem alternatives_of_coerce {raw : Value} (hop : op.takesList = true)
    (h : op.coerce t raw = .ok v) (hv : v.isNull = false) :
    ∃ vs, v = .list vs ∧ ∀ w ∈ vs, w = .null ∨ t.Stores w := by
  cases fits_of_coerce h with
  | null => cases hv
  | alternatives _ hxs => exact ⟨_, rfl, hxs⟩
  | flag | term | terms | item | collection | value => cases op <;> contradiction

/-! ### Searches -/

/-- A way of joining tests is answered on a row exactly if each test is. -/
def Joins (aliases : Aliases) (row : Value) (join : List Predicate → Predicate) : Prop :=
  ∀ ps, (∀ p ∈ ps, p.Proper) →
    (join ps).Proper ∧ ((join ps).Answered aliases row ↔ ∀ p ∈ ps, p.Answered aliases row)

theorem joins_disjunction : Joins aliases row .disjunction := fun _ h =>
  ⟨Predicate.proper_disjunction h, Predicate.answered_disjunction_iff h⟩

theorem joins_allFragments : Joins aliases row allFragments := by
  intro ps h
  unfold allFragments
  split
  · simp [Predicate.proper_const]
  · exact ⟨Predicate.proper_conjunction h, Predicate.answered_conjunction_iff h⟩

theorem joins_someFragment : Joins aliases row someFragment := by
  intro ps h
  unfold someFragment
  split
  · simp [Predicate.proper_const]
  · exact joins_disjunction _ h

/-- The tests for terms are answered unless there is a term, and a value that cannot be written. -/
theorem answered_terms_iff (caseSensitive : Bool) (terms : List String)
    (hx : ref.read aliases row = .ok x) :
    (∀ p ∈ terms.map (termPredicate ref caseSensitive), p.Answered aliases row) ↔
      x = .null ∨ ¬(x.isWritable = false ∧ terms ≠ []) := by
  simp only [List.forall_mem_map, termPredicate, Predicate.answered_like_iff _ _ hx]
  cases terms with
  | nil => simp
  | cons term terms =>
    simp only [List.forall_mem_cons, ne_eq, reduceCtorEq, not_false_eq_true, and_true,
      Bool.not_eq_false]
    exact ⟨And.left, fun h => ⟨h, fun _ _ => h⟩⟩

/-- A search is answered unless it has a term, and the value of the row cannot be written. -/
theorem search_answered_iff {join : List Predicate → Predicate} {caseSensitive : Bool}
    {source : Except Error (List String)} (hjoin : Joins aliases row join)
    (hx : ref.read aliases row = .ok x)
    (hp : (do .ok (join ((← source).map (termPredicate ref caseSensitive)))) =
      (.ok p : Except Error Predicate)) :
    p.Proper ∧ (p.Answered aliases row ↔ x = .null ∨ ¬(x.isWritable = false ∧ source ≠ .ok [])) := by
  obtain ⟨terms, rfl, hp⟩ := bind_eq_ok_iff.1 hp
  cases hp
  have hproper : ∀ p ∈ terms.map (termPredicate ref caseSensitive), p.Proper := by
    simp only [List.forall_mem_map]
    exact fun term _ => Predicate.proper_like _ _ _
  refine ⟨(hjoin _ hproper).1, (hjoin _ hproper).2.trans ?_⟩
  simp only [answered_terms_iff caseSensitive terms hx, ne_eq, Except.ok.injEq]

theorem sure_emptyPredicate (t : StorageType) (hx : ref.read aliases row = .ok x)
    (hheld : x.NullOr t.Holds) : Sure aliases row (emptyPredicate ref t) := by
  have hnull := Predicate.answered_isNull hx
  rcases hheld with rfl | hheld
  · -- A row with null is answered whatever it is compared with.
    cases t with
    | array | map =>
      have hcompare := fun v => (Predicate.answered_compare_iff (c := .eq) (v := v) hx).2 (.inl rfl)
      exact ⟨nofun, (Predicate.answered_any_iff (by simp [Predicate.Proper])).2
        (by simp [hnull, hcompare])⟩
    | _ => exact ⟨nofun, hnull⟩
  · rw [emptyPredicate_eq ref (by rintro rfl; cases hheld) (by rintro rfl; cases hheld)]
    exact ⟨nofun, hnull⟩

theorem sure_emptiness (t : StorageType) (negated : Bool) (v : Value)
    (hx : ref.read aliases row = .ok x) (hheld : x.NullOr t.Holds) :
    Sure aliases row (emptiness ref t negated v) := by
  have hempty := sure_emptyPredicate t hx hheld
  unfold emptiness
  split
  · exact ⟨Predicate.proper_const true, Predicate.answered_const true⟩
  · split
    · exact hempty
    · exact ⟨nofun, Predicate.answered_not_iff.2 hempty.2⟩

/-! ### Operators -/

theorem noneOf_proper (vs : List Value) : (noneOf ref vs).Proper := by
  unfold noneOf
  dsimp only
  split <;> nofun

theorem noneOf_answered_iff {vs : List Value} (hx : ref.read aliases row = .ok x)
    (hheld : x.NullOr t.Holds) (hvs : ∀ v ∈ vs, v = .null ∨ t.Stores v) :
    (noneOf ref vs).Answered aliases row ↔ x = .null ∨ ¬x.MeetsSignal vs := by
  have hlisted : ∀ v ∈ vs.filter (!·.isNull), v = .null ∨ t.Stores v :=
    fun v hv => hvs v (List.mem_filter.1 hv).1
  have hin : (Predicate.not (.isIn ref (vs.filter (!·.isNull)))).Answered aliases row ↔
      x = .null ∨ ¬x.MeetsSignal vs := by
    rw [Predicate.answered_not_iff, Predicate.answered_isIn_iff hx]
    refine hheld.or_iff fun hheld => ?_
    rw [hheld.member?_iff hlisted, hheld.meetsSignal_filter_iff]
  unfold noneOf
  dsimp only
  split
  · have hnull := Predicate.answered_not_iff.2 (Predicate.answered_isNull hx)
    have hproper := Predicate.proper_not
    exact ((Predicate.answered_and_iff (hproper _) (hproper _)).trans (and_iff_left hnull)).trans hin
  · exact hin

/-- **The predicate of an operator is answered unless the values clash.** -/
theorem onRef_answered_iff {raw : Value} (hp : op.onRef ref t v = .ok p)
    (hv : op.coerce t raw = .ok v) (hgiven : v.isNull = false) (hx : ref.read aliases row = .ok x)
    (hheld : x.NullOr t.Holds) :
    p.Proper ∧ (p.Answered aliases row ↔ x = .null ∨ ¬op.Clashes x v) := by
  -- The operators without clashes.
  have hsure : ∀ {p : Predicate}, ¬op.Clashes x v → Sure aliases row p →
      p.Proper ∧ (p.Answered aliases row ↔ x = .null ∨ ¬op.Clashes x v) :=
    fun hno h => ⟨h.1, iff_of_true h.2 (.inr hno)⟩
  cases op <;> simp only [onRef] at hp
  case eq | ne =>
    cases hp
    refine ⟨Predicate.proper_compare _ _ _, (Predicate.answered_compare_iff hx).trans ?_⟩
    refine hheld.or_iff fun hheld => ?_
    have hequal := hheld.equal_iff (stores_of_coerce hheld rfl hv hgiven)
    first | exact hequal | exact Predicate.exists_bind_ok_iff.trans hequal
  case lt | le | gt | ge =>
    cases hp
    refine ⟨Predicate.proper_compare _ _ _, (Predicate.answered_compare_iff hx).trans ?_⟩
    refine hheld.or_iff fun hheld => ?_
    have hstores := stores_of_coerce hheld rfl hv hgiven
    first | exact hheld.precedes_iff hstores _ | exact hheld.preceded_iff hstores _
  case isIn | notIn =>
    obtain ⟨vs, rfl, hvs⟩ := alternatives_of_coerce rfl hv hgiven
    rw [Value.items_list, ok_bind] at hp
    cases hp
    simp only [Clashes, Value.list.injEq, exists_eq_left']
    first
    | exact ⟨noneOf_proper vs, noneOf_answered_iff hx hheld hvs⟩
    | refine ⟨Predicate.proper_isIn _ _, (Predicate.answered_isIn_iff hx).trans ?_⟩
      exact hheld.or_iff fun hheld => hheld.member?_iff hvs
  case contains | notContains =>
    cases hp
    have hcontains := Predicate.answered_contains_iff (v := v) hx
    simp only [Clashes, not_not, Predicate.answered_not_iff, hcontains]
    refine ⟨?_, hheld.or_iff fun hheld => hheld.contains_iff⟩
    first | exact Predicate.proper_contains _ _ | exact Predicate.proper_not _
  case like | ilike | search => exact search_answered_iff joins_disjunction hx hp
  case notLike | notIlike =>
    obtain ⟨q, hq, hp⟩ := bind_eq_ok_iff.1 hp
    cases hp
    exact ⟨Predicate.proper_not _, Predicate.answered_not_iff.trans
      (search_answered_iff joins_disjunction hx hq).2⟩
  case likeAnd | ilikeAnd => exact search_answered_iff joins_allFragments hx hp
  case likeOr | ilikeOr => exact search_answered_iff joins_someFragment hx hp
  case empty | notEmpty =>
    cases hp
    exact hsure id (sure_emptiness t _ v hx hheld)

end Operator

end Sieve
