import Sieve.Proofs.Evaluation.Members

/-!
# Three-valued logic

Predicates are answered in the logic of databases. A comparison with null is unknown, groups and negations
carry unknown along as far as it matters, and a value is in a list if it equals one of the items. The
answers differ in one place: whether null is in a list without items is left unknown here, while a
disjunction of nothing is false.

* `Truth.and`, `Truth.or`: the tables; `Truth.all_eq_foldr`, `Truth.any_eq_foldr`;
* `Predicate.truth`: the truth of a predicate by the tables;
* `Predicate.Comparable`: the values of a row can be compared as the predicate asks;
* `Predicate.evaluate_truth`: what is answered;
* `Predicate.evaluate_logic`: how far this is the truth;
* `Predicate.evaluate_isIn_nil`: a list without items.
-/

namespace Sieve

open Outcome

/-! ### Tables -/

namespace Truth

variable {t t' u u' : Truth} {ts us : List Truth}

/-- Both hold: false decides, otherwise unknown does. -/
def and : Truth → Truth → Truth
  | some false, _ => some false
  | some true, t => t
  | none, some false => some false
  | none, _ => none

/-- One of both holds: true decides, otherwise unknown does. -/
def or : Truth → Truth → Truth
  | some true, _ => some true
  | some false, t => t
  | none, some true => some true
  | none, _ => none

theorem or_eq_not_and (t u : Truth) : or t u = not (and (not t) (not u)) := by
  rcases t with _ | _ | _ <;> rcases u with _ | _ | _ <;> rfl

theorem all_eq_foldr (ts : List Truth) : all ts = ts.foldr and (some true) := by
  induction ts with
  | nil => rfl
  | cons t ts ih =>
    rw [List.foldr_cons, ← ih]
    by_cases hfalse : some false ∈ ts <;> by_cases hnone : none ∈ ts <;>
      rcases t with _ | _ | _ <;> simp [all, and, hfalse, hnone]

theorem any_eq_foldr (ts : List Truth) : any ts = ts.foldr or (some false) := by
  induction ts with
  | nil => rfl
  | cons t ts ih =>
    rw [List.foldr_cons, ← ih]
    by_cases htrue : some true ∈ ts <;> by_cases hnone : none ∈ ts <;>
      rcases t with _ | _ | _ <;> simp [any, or, htrue, hnone]

/-- Unknown answers joined with an answer that is not true are unknown, if there are any. -/
theorem foldr_or_none {α : Type} (xs : List α) (t : Truth) :
    (xs.map fun _ => (none : Truth)).foldr or t = if xs = [] then t else or none t := by
  induction xs with
  | nil => rfl
  | cons x xs ih =>
    rw [List.map_cons, List.foldr_cons, ih]
    by_cases hxs : xs = []
    · simp [hxs]
    · rcases t with _ | _ | _ <;> simp [hxs, or]

/-- The first answer is unknown, or it is the second one. -/
def Below (t u : Truth) : Prop :=
  t = none ∨ t = u

theorem Below.refl (t : Truth) : t.Below t := .inr rfl

theorem below_none (u : Truth) : Below none u := .inl rfl

theorem Below.not (h : t.Below u) : t.not.Below u.not := by
  rcases h with rfl | rfl
  · exact below_none _
  · exact .refl _

theorem Below.and (h : t.Below u) (h' : t'.Below u') : (and t t').Below (and u u') := by
  rcases h with rfl | rfl
  · rcases h' with rfl | rfl
    · exact below_none _
    · -- Only false decides beside unknown, and it decides beside all answers.
      rcases t' with _ | _ | _
      · exact below_none _
      · rcases u with _ | _ | _ <;> exact .refl _
      · exact below_none _
  · rcases h' with rfl | rfl
    · rcases t with _ | _ | _
      · exact below_none _
      · exact .refl _
      · exact below_none _
    · exact .refl _

theorem Below.or (h : t.Below u) (h' : t'.Below u') : (or t t').Below (or u u') := by
  rw [or_eq_not_and, or_eq_not_and]
  exact (h.not.and h'.not).not

theorem Below.foldr {join : Truth → Truth → Truth}
    (hjoin : ∀ {t u t' u' : Truth}, t.Below u → t'.Below u' → (join t t').Below (join u u'))
    (h : List.Forall₂ Below ts us) (t : Truth) : (ts.foldr join t).Below (us.foldr join t) := by
  induction h with
  | nil => exact .refl t
  | cons htu _ ih => exact hjoin htu ih

end Truth

/-! ### Lists of values -/

/-- The comparison of two values: unknown if one of them is null. -/
def Comparison.truth (c : Comparison) (x v : Value) : Truth :=
  if x.isNull || v.isNull then none else (c.holds x v).toOption

theorem Comparison.truth_given {c : Comparison} {x v : Value} (hx : x ≠ .null) :
    c.truth x v = if v.isNull then none else (c.holds x v).toOption := by
  rw [Comparison.truth, Value.isNull_eq_false hx, Bool.false_or]

namespace Value

variable {x v : Value} {vs : List Value}

/-- Null equals nothing else. -/
theorem equal_null_right (hx : x ≠ .null) : x.equal .null = .ok false := by
  cases x <;> simp [equal, number?] at hx ⊢

section

variable (hx : x ≠ .null)
include hx

theorem isNull_eq_truth (hequal : v = .null ∨ ∃ b, x.equal v = .ok b) :
    v.isNull = (none == Comparison.eq.truth x v) := by
  rw [Comparison.truth_given hx, Comparison.holds]
  rcases hequal with rfl | ⟨b, hb⟩
  · rfl
  · rw [hb]
    cases v.isNull <;> rfl

theorem equal_eq_truth (hequal : v = .null ∨ ∃ b, x.equal v = .ok b) :
    x.equal v = .ok (some true == Comparison.eq.truth x v) := by
  rw [Comparison.truth_given hx, Comparison.holds]
  by_cases hv : v = .null
  · subst hv
    rw [equal_null_right hx]
    rfl
  · obtain ⟨b, hb⟩ := hequal.resolve_left hv
    rw [hb, isNull_eq_false hv]
    cases b <;> rfl

theorem any_isNull_eq (hequal : ∀ v ∈ vs, v = .null ∨ ∃ b, x.equal v = .ok b) :
    vs.any isNull = (vs.map (Comparison.eq.truth x)).contains none := by
  induction vs with
  | nil => rfl
  | cons v vs ih =>
    obtain ⟨hv, hvs⟩ := List.forall_mem_cons.1 hequal
    rw [List.any_cons, isNull_eq_truth hx hv, ih hvs, List.map_cons, List.contains_cons]

theorem member?_eq (hequal : ∀ v ∈ vs, v = .null ∨ ∃ b, x.equal v = .ok b) :
    x.member? vs = .ok ((vs.map (Comparison.eq.truth x)).contains (some true)) := by
  induction vs with
  | nil => rfl
  | cons v vs ih =>
    obtain ⟨hv, hvs⟩ := List.forall_mem_cons.1 hequal
    rw [member?, equal_eq_truth hx hv, ok_bind, ih hvs, List.map_cons, List.contains_cons]
    cases some true == Comparison.eq.truth x v <;> rfl

/-- **A value that is not null is in a list if one of the comparisons with the items holds.** -/
theorem amongValues_eq (hequal : ∀ v ∈ vs, v = .null ∨ ∃ b, x.equal v = .ok b) :
    Predicate.amongValues x vs =
      .ok ((vs.map (Comparison.eq.truth x)).foldr Truth.or (some false)) := by
  rw [← Truth.any_eq_foldr, Predicate.amongValues, member?_eq hx hequal, ok_bind,
    any_isNull_eq hx hequal, Truth.any]
  split <;> rfl

end

end Value

/-! ### The truth of predicates -/

/-- The value of a field of a row; null if it cannot be read. -/
def FieldRef.value (aliases : Aliases) (row : Value) (r : FieldRef) : Value :=
  match r.read aliases row with
  | .ok x => x
  | .error _ => .null

theorem FieldRef.value_of_read {aliases : Aliases} {row x : Value} {r : FieldRef}
    (hx : r.read aliases row = .ok x) : r.value aliases row = x := by
  rw [FieldRef.value, hx]

namespace Predicate

mutual

/-- The truth of a predicate on a row. A value is in a list if one of its comparisons with the items
holds; `blank` says whether null is in a list without items, which is false for databases. -/
def truth (aliases : Aliases) (row : Value) (blank : Truth) : Predicate → Truth
  | .const b => some b
  | .all ps => (truths aliases row blank ps).foldr Truth.and (some true)
  | .any ps => (truths aliases row blank ps).foldr Truth.or (some false)
  | .not p => Truth.not (truth aliases row blank p)
  | .isNull r => some (r.value aliases row).isNull
  | .compare r c v => c.truth (r.value aliases row) v
  | .isIn r vs =>
    (vs.map (Comparison.eq.truth (r.value aliases row))).foldr Truth.or
      (if (r.value aliases row).isNull then blank else some false)
  | .like r p c =>
    if (r.value aliases row).isNull then none
    else some (decide (Like.Spells (Like.sameChar c) (Like.tokens (some Like.escapeChar) p.toList)
      (r.value aliases row).render.toList))
  | _ => none

/-- The truths of predicates, in order. -/
def truths (aliases : Aliases) (row : Value) (blank : Truth) : List Predicate → List Truth
  | [] => []
  | p :: ps => truth aliases row blank p :: truths aliases row blank ps

end

/-- The values of the row can be compared as the predicate asks: its fields can be read, null is not
compared with, comparisons of values are answered, and what is matched with a pattern can be written. -/
inductive Comparable (aliases : Aliases) (row : Value) : Predicate → Prop
  | const (b : Bool) : Comparable aliases row (.const b)
  | all {ps : List Predicate} (hps : ∀ p ∈ ps, Comparable aliases row p) :
    Comparable aliases row (.all ps)
  | any {ps : List Predicate} (hps : ∀ p ∈ ps, Comparable aliases row p) :
    Comparable aliases row (.any ps)
  | not {p : Predicate} (hp : Comparable aliases row p) : Comparable aliases row (.not p)
  | isNull {r : FieldRef} {x : Value} (hx : r.read aliases row = .ok x) :
    Comparable aliases row (.isNull r)
  | compare {r : FieldRef} {x : Value} {c : Comparison} {v : Value} (hx : r.read aliases row = .ok x)
    (hv : v ≠ .null) (hholds : x = .null ∨ ∃ b, c.holds x v = .ok b) :
    Comparable aliases row (.compare r c v)
  | isIn {r : FieldRef} {x : Value} {vs : List Value} (hx : r.read aliases row = .ok x)
    (hequal : x = .null ∨ ∀ v ∈ vs, v = .null ∨ ∃ b, x.equal v = .ok b) :
    Comparable aliases row (.isIn r vs)
  | like {r : FieldRef} {x : Value} {pattern : String} {caseSensitive : Bool}
    (hx : r.read aliases row = .ok x) (hwritable : x.isWritable = true) :
    Comparable aliases row (.like r pattern caseSensitive)

variable {aliases : Aliases} {row x v : Value} {blank : Truth} {r : FieldRef} {p : Predicate}
  {ps : List Predicate} {vs : List Value} {f : Field}

theorem truths_eq_map (aliases : Aliases) (row : Value) (blank : Truth) (ps : List Predicate) :
    truths aliases row blank ps = ps.map (truth aliases row blank) := by
  induction ps with
  | nil => rfl
  | cons p ps ih => rw [truths, ih, List.map_cons]

theorem truth_all (aliases : Aliases) (row : Value) (blank : Truth) (ps : List Predicate) :
    (Predicate.all ps).truth aliases row blank =
      (ps.map (truth aliases row blank)).foldr Truth.and (some true) := by
  rw [← truths_eq_map]
  rfl

theorem truth_any (aliases : Aliases) (row : Value) (blank : Truth) (ps : List Predicate) :
    (Predicate.any ps).truth aliases row blank =
      (ps.map (truth aliases row blank)).foldr Truth.or (some false) := by
  rw [← truths_eq_map]
  rfl

theorem truth_not (aliases : Aliases) (row : Value) (blank : Truth) (p : Predicate) :
    (Predicate.not p).truth aliases row blank = Truth.not (p.truth aliases row blank) := rfl

theorem truth_isIn_eq (aliases : Aliases) (row : Value) (blank : Truth) (r : FieldRef)
    (vs : List Value) :
    (isIn r vs).truth aliases row blank =
      (vs.map (Comparison.eq.truth (r.value aliases row))).foldr Truth.or
        (if (r.value aliases row).isNull then blank else some false) := rfl

theorem Comparable.proper (hp : p.Comparable aliases row) : p.Proper := by
  cases hp <;> nofun

/-- The answers of predicates that are answered by their truth. -/
theorem evaluateEach_truth (constant : Value → Except Error Truth)
    (hps : ∀ p ∈ ps, p.Comparable aliases row)
    (h : ∀ p ∈ ps, p.evaluate aliases row = .ok (p.truth aliases row none)) :
    evaluateEach aliases row constant ps = .ok (truths aliases row none ps) := by
  apply evaluateEach_eq_ok
  rw [truths_eq_map, List.forall₂_map_right_iff, List.forall₂_same]
  exact fun p hp => ⟨(hps p hp).proper, h p hp⟩

/-- Null is in no list: all comparisons with the items are unknown. -/
theorem truth_isIn_null (hx : r.value aliases row = .null) (vs : List Value) :
    (isIn r vs).truth aliases row blank = if vs = [] then blank else Truth.or none blank := by
  have hunknown : vs.map (Comparison.eq.truth .null) = vs.map fun _ => none := rfl
  rw [truth_isIn_eq, hx, hunknown, Truth.foldr_or_none]
  rfl

theorem truth_isIn (hx : r.value aliases row ≠ .null) (vs : List Value) :
    (isIn r vs).truth aliases row blank =
      (vs.map (Comparison.eq.truth (r.value aliases row))).foldr Truth.or (some false) := by
  rw [truth_isIn_eq, Value.isNull_eq_false hx]
  rfl

/-- **A predicate is answered by its truth**, where null in a list without items is unknown. -/
theorem evaluate_truth (hp : p.Comparable aliases row) :
    p.evaluate aliases row = .ok (p.truth aliases row none) := by
  induction hp with
  | const b => rfl
  | all hps ih =>
    rw [evaluate, evaluateEach_truth oddConjunct hps ih, truth, ← Truth.all_eq_foldr]
    rfl
  | any hps ih =>
    rw [evaluate, evaluateEach_truth oddDisjunct hps ih, truth, ← Truth.any_eq_foldr]
    rfl
  | not _ ih =>
    rw [evaluate, ih, truth]
    rfl
  | isNull hx =>
    rw [evaluate, hx, truth, FieldRef.value_of_read hx]
    rfl
  | @compare r x c v hx hv hholds =>
    rw [evaluate, hx, ok_bind, unlessNull, truth, FieldRef.value_of_read hx, Comparison.truth,
      Value.isNull_eq_false hv, Bool.or_false]
    split
    · rfl
    · next hgiven =>
      obtain ⟨b, hb⟩ := hholds.resolve_left (mt Value.isNull_iff.2 hgiven)
      rw [hb]
      rfl
  | @isIn r x vs hx hequal =>
    have hvalue := FieldRef.value_of_read hx
    by_cases hnull : x = .null
    · subst hnull
      rw [evaluate, hx, truth_isIn_null hvalue]
      split <;> rfl
    · have hgiven : ¬x.isNull = true := mt Value.isNull_iff.1 hnull
      rw [evaluate, hx, ok_bind, unlessNull, if_neg hgiven,
        Value.amongValues_eq hnull (hequal.resolve_left hnull), truth_isIn (hvalue ▸ hnull), hvalue]
  | @like r x pattern caseSensitive hx hwritable =>
    have hwritten : x.written = .ok x.render := Value.written_eq_ok_iff.2 ⟨hwritable, rfl⟩
    rw [evaluate, hx, ok_bind, unlessNull, truth, FieldRef.value_of_read hx]
    split
    · rfl
    · rw [matchText, hwritten]
      refine congrArg (fun b => Except.ok (some b)) ?_
      rw [Bool.eq_iff_iff, decide_eq_true_iff, Like.accepts, Like.matchesTokens_iff_spells]

/-! ### Lists without items -/

/-- Somewhere in the predicate null is looked up in a list without items. -/
def HasBlank (aliases : Aliases) (row : Value) (p : Predicate) : Prop :=
  ∃ r, isIn r [] ∈ p.nodes ∧ r.value aliases row = .null

theorem HasBlank.all (hp : p ∈ ps) (h : p.HasBlank aliases row) :
    (Predicate.all ps).HasBlank aliases row :=
  have ⟨r, hr, hnull⟩ := h
  ⟨r, List.mem_cons_of_mem _ (mem_nodesOf.2 ⟨p, hp, hr⟩), hnull⟩

theorem HasBlank.any (hp : p ∈ ps) (h : p.HasBlank aliases row) :
    (Predicate.any ps).HasBlank aliases row :=
  have ⟨r, hr, hnull⟩ := h
  ⟨r, List.mem_cons_of_mem _ (mem_nodesOf.2 ⟨p, hp, hr⟩), hnull⟩

theorem HasBlank.not (h : p.HasBlank aliases row) : (Predicate.not p).HasBlank aliases row :=
  have ⟨r, hr, hnull⟩ := h
  ⟨r, List.mem_cons_of_mem _ hr, hnull⟩

/-- Without such a list it does not matter what the answer would be. -/
theorem truth_eq (hp : p.Comparable aliases row) (hblank : ¬p.HasBlank aliases row) :
    p.truth aliases row none = p.truth aliases row (some false) := by
  induction hp with
  | const | isNull | compare | like => rfl
  | all _ ih =>
    rw [truth_all, truth_all,
      List.map_congr_left fun p hp => ih p hp (mt (HasBlank.all hp) hblank)]
  | any _ ih =>
    rw [truth_any, truth_any,
      List.map_congr_left fun p hp => ih p hp (mt (HasBlank.any hp) hblank)]
  | not _ ih => rw [truth_not, truth_not, ih (mt HasBlank.not hblank)]
  | @isIn r x vs =>
    by_cases hnull : r.value aliases row = .null
    · have hvs : vs ≠ [] := by
        rintro rfl
        exact hblank ⟨r, List.mem_singleton.2 rfl, hnull⟩
      rw [truth_isIn_null hnull, truth_isIn_null hnull, if_neg hvs, if_neg hvs]
      rfl
    · rw [truth_isIn hnull, truth_isIn hnull]

/-- Whatever the answer would be, to leave it unknown leaves answers unknown, and makes none wrong. -/
theorem truth_below (hp : p.Comparable aliases row) (u : Truth) :
    (p.truth aliases row none).Below (p.truth aliases row u) := by
  induction hp with
  | const | isNull | compare | like => exact .refl _
  | @all ps _ ih =>
    rw [truth_all, truth_all]
    refine Truth.Below.foldr Truth.Below.and ?_ _
    rw [List.forall₂_map_left_iff, List.forall₂_map_right_iff, List.forall₂_same]
    exact ih
  | @any ps _ ih =>
    rw [truth_any, truth_any]
    refine Truth.Below.foldr Truth.Below.or ?_ _
    rw [List.forall₂_map_left_iff, List.forall₂_map_right_iff, List.forall₂_same]
    exact ih
  | not _ ih => exact ih.not
  | @isIn r x vs =>
    by_cases hnull : r.value aliases row = .null
    · rw [truth_isIn_null hnull]
      split <;> exact Truth.below_none _
    · rw [truth_isIn hnull, truth_isIn hnull]
      exact .refl _

/-! ### Values that are in no list -/

/-- That null is not in a list is unknown. -/
theorem truth_not_isIn_null (hx : r.value aliases row = .null) :
    (Predicate.not (isIn r vs)).truth aliases row none = none := by
  rw [truth_not, truth_isIn_null hx]
  split <;> rfl

/-- The negation is true as for databases, but not where null is looked up in a list without items. -/
theorem truth_not_isIn_true_iff :
    (Predicate.not (isIn r vs)).truth aliases row none = some true ↔
      (Predicate.not (isIn r vs)).truth aliases row (some false) = some true ∧
        (r.value aliases row = .null → vs ≠ []) := by
  rw [truth_not, truth_not]
  by_cases hnull : r.value aliases row = .null
  · rw [truth_isIn_null hnull, truth_isIn_null hnull]
    by_cases hvs : vs = [] <;> simp [hnull, hvs, Truth.not, Truth.or]
  · rw [truth_isIn hnull, truth_isIn hnull]
    simp [hnull]

/-- The predicate that a field equals none of the values. -/
theorem trueIff_noneOf (hx : r.read aliases row = .ok x)
    (hequal : x = .null ∨ ∀ v ∈ vs, v = .null ∨ ∃ b, x.equal v = .ok b) :
    (Operator.noneOf r vs).TrueIff aliases row
      ((Predicate.not (isIn r (vs.filter (!·.isNull)))).truth aliases row (some false) = some true ∧
        (x = .null → vs.filter (!·.isNull) ≠ [])) := by
  have hvalue := FieldRef.value_of_read hx
  have hin : (isIn r (vs.filter (!·.isNull))).Comparable aliases row :=
    .isIn hx (hequal.imp_right fun h v hv => h v (List.mem_of_mem_filter hv))
  have hanswer := evaluate_truth (.not hin)
  have htrue := hvalue ▸ @truth_not_isIn_true_iff aliases row r (vs.filter (!·.isNull))
  rw [Operator.noneOf]
  split
  · have hnull : (Predicate.not (isNull r)).evaluate aliases row = .ok (some !x.isNull) := by
      rw [evaluate, evaluate, hx]
      rfl
    refine ⟨proper_and _ _, _, evaluate_all_two hanswer hnull (proper_not _) (proper_not _), ?_⟩
    rw [Truth.all_eq_true_iff, ← htrue, List.forall_mem_cons, List.forall_mem_singleton]
    refine ⟨And.left, fun h => ⟨h, ?_⟩⟩
    -- The negation is never true of null, so to exclude nulls as well changes nothing.
    have hgiven : x ≠ .null := by
      intro hnull
      cases (truth_not_isIn_null (hvalue.trans hnull)).symm.trans h
    rw [Value.isNull_eq_false hgiven]
    rfl
  · exact ⟨proper_not _, _, hanswer, htrue⟩

/-- **Predicates are answered in three-valued logic**, but where null is looked up in a list without
items. There the answer is unknown instead of false, and so may be answers that depend on it; no answer is
the opposite of the truth. A filter that a column is not in a list selects the rows that databases select
by the list without its nulls, but for those with null where nothing is left of the list. -/
theorem evaluate_logic (schema : Option Schema) (policy : CompositePolicy)
    (hp : p.Comparable aliases row) (hf : f.IsColumn) (hr : f.ref? = some r)
    (hx : r.read aliases row = .ok x) (hvs : v.items = .ok vs)
    (hequal : x = .null ∨ ∀ w ∈ vs, w = .null ∨ ∃ b, x.equal w = .ok b) :
    p.evaluate aliases row = .ok (p.truth aliases row none) ∧
    (p.truth aliases row none).Below (p.truth aliases row (some false)) ∧
    (¬p.HasBlank aliases row → p.truth aliases row none = p.truth aliases row (some false)) ∧
    f.SelectsIff schema policy .notIn v aliases row
      ((Predicate.not (isIn r (vs.filter (!·.isNull)))).truth aliases row (some false) = some true ∧
        (x = .null → vs.filter (!·.isNull) ≠ [])) := by
  have hop : Operator.notIn.onRef r f.type v = .ok (Operator.noneOf r vs) := by
    rw [Operator.onRef, hvs]
    rfl
  have hanswers : f.Answers .notIn v aliases row
      ((Predicate.not (isIn r (vs.filter (!·.isNull)))).truth aliases row (some false) = some true ∧
        (x = .null → vs.filter (!·.isNull) ≠ [])) :=
    ⟨r, _, hr, hop, trueIff_noneOf hx hequal⟩
  exact ⟨evaluate_truth hp, truth_below hp _, truth_eq hp, hanswers.selectsIff hf⟩

/-- A row with a number, a null and a text. -/
def mixedRow : Value :=
  .record [("a", .null), ("b", .int 3), ("name", .text "Ann")]

/-- A predicate of all kinds of nodes. -/
def mixed : Predicate :=
  .not (.any [.all [.const true, .compare (.plain "b") .lt (.int 2)], .isIn (.plain "a") [.int 1, .null],
    .isNull (.plain "b"), .not (.like (.plain "name") "%n_" true)])

/-- The predicate is answered on the row, and so is whether its number is not in a list with a null. -/
theorem evaluate_logic_mixed :
    mixed.Comparable [] mixedRow ∧ (Field.plain "b" .integer).IsColumn ∧
    (Field.plain "b" .integer).ref? = some (.plain "b") ∧
    (FieldRef.plain "b").read [] mixedRow = .ok (.int 3) ∧
    (Value.list [.int 1, .null]).items = .ok [.int 1, .null] ∧
    mixed.evaluate [] mixedRow = .ok (mixed.truth [] mixedRow none) ∧
    (mixed.truth [] mixedRow none).Below (mixed.truth [] mixedRow (some false)) ∧
    (¬mixed.HasBlank [] mixedRow →
      mixed.truth [] mixedRow none = mixed.truth [] mixedRow (some false)) ∧
    (Field.plain "b" .integer).SelectsIff none .warn .notIn (.list [.int 1, .null]) [] mixedRow
      ((Predicate.not (isIn (.plain "b") ([.int 1, .null].filter (!·.isNull)))).truth [] mixedRow
        (some false) = some true ∧ (Value.int 3 = .null → [Value.int 1, .null].filter (!·.isNull) ≠ [])) := by
  have hnumber : (FieldRef.plain "b").read [] mixedRow = .ok (.int 3) := rfl
  have hless : (compare (.plain "b") .lt (.int 2)).Comparable [] mixedRow :=
    .compare hnumber nofun (.inr ⟨false, (Value.precedes_int false 3 2).trans rfl⟩)
  have hcomparable : mixed.Comparable [] mixedRow := by
    refine .not (.any ?_)
    simp only [List.forall_mem_cons, List.not_mem_nil, false_imp_iff, implies_true, and_true]
    refine ⟨.all ?_, .isIn rfl (.inl rfl), .isNull hnumber, .not (.like rfl rfl)⟩
    simpa using ⟨.const true, hless⟩
  have hequal : ∀ w ∈ [Value.int 1, .null], w = .null ∨ ∃ b, (Value.int 3).equal w = .ok b := by
    simp
  exact ⟨hcomparable, .inl rfl, rfl, hnumber, rfl,
    evaluate_logic none .warn hcomparable (.inl rfl) rfl hnumber rfl (.inr hequal)⟩

/-- **Null in a list without items is unknown**, where a disjunction of nothing is false. So a filter that a
column is not in such a list does not select a row that databases select. -/
theorem evaluate_isIn_nil :
    (isIn (.plain "a") []).Comparable [] mixedRow ∧
    (isIn (.plain "a") []).evaluate [] mixedRow = .ok none ∧
    (isIn (.plain "a") []).truth [] mixedRow (some false) = some false ∧
    (Field.plain "a" .integer).select none .warn .notIn (.list []) =
      .ok (.not (isIn (.plain "a") [])) ∧
    (Predicate.not (isIn (.plain "a") [])).selects [] mixedRow = .ok false ∧
    (Predicate.not (isIn (.plain "a") [])).truth [] mixedRow (some false) = some true := by
  refine ⟨.isIn rfl (.inl rfl), rfl, rfl, rfl, ?_, rfl⟩
  rw [selects_of_proper (proper_not _)]
  rfl

end Predicate

end Sieve
