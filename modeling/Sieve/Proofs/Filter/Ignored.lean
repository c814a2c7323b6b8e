import Sieve.Proofs.Keyset.Window
import Sieve.Proofs.Observation.Lockstep
import Sieve.Validation

/-!
# Conditions without a value

A condition without a value is compiled to a predicate that always holds. Where all filters of a group
have to be met that is as good as no condition at all. Where one is enough it meets the group by itself,
so the condition lets in rows that none of the others selects.

* `Filter.Place`: a place in a forest of filters, `Place.fill` puts filters there;
* `Filter.Met`: a row meets a filter as one of a group;
* `Place.Opens`: a filter that is always met makes a difference at a place;
* `Filter.selectAll_ignored`: a condition without a value changes the answer exactly where it opens the
  forest;
* `Filter.ignored_opens`: it does so in a group of which one filter is enough.
-/

namespace Sieve

open Outcome

/-! ### Answers among others -/

namespace Predicate

/-- The answer of a predicate among others; constants that are no truth values have a rule of their
own there. -/
def answerAmong (aliases : Aliases) (row : Value) (constant : Value → Except Error Truth) :
    Predicate → Except Error Truth
  | .oddConst v => constant v
  | p => p.evaluate aliases row

variable {aliases : Aliases} {row : Value} {p : Predicate}

theorem answerAmong_of_proper {constant : Value → Except Error Truth} (hp : ∀ v, p ≠ .oddConst v) :
    p.answerAmong aliases row constant = p.evaluate aliases row := by
  cases p with
  | oddConst v => exact absurd rfl (hp v)
  | _ => rfl

theorem evaluateEach_eq_mapM (constant : Value → Except Error Truth) (ps : List Predicate) :
    evaluateEach aliases row constant ps = ps.mapM (answerAmong aliases row constant) := by
  induction ps with
  | nil => rfl
  | cons p ps ih =>
    rw [List.mapM_cons, ← ih]
    cases p <;> rw [evaluateEach] <;> first | rfl | simp

end Predicate

namespace GroupKind

/-- What a constant that is no truth value counts for in a group. -/
def constant (k : GroupKind) : Value → Except Error Truth :=
  if k = .all then Predicate.oddConjunct else Predicate.oddDisjunct

/-- The answers of a group from those of its filters. -/
def join (k : GroupKind) (ts : List Truth) : Truth :=
  if k = .all then .all ts else .any ts

/-- The predicate of a group. -/
def predicate (k : GroupKind) (ps : List Predicate) : Predicate :=
  if k = .all then .all ps else .any ps

theorem predicate_proper (k : GroupKind) (ps : List Predicate) (v : Value) :
    k.predicate ps ≠ .oddConst v := by
  unfold predicate
  split <;> nofun

/-- A group is answered from the answers of its filters. -/
theorem evaluate_predicate (k : GroupKind) (aliases : Aliases) (row : Value) (ps : List Predicate) :
    (k.predicate ps).evaluate aliases row =
      k.join <$> ps.mapM (Predicate.answerAmong aliases row k.constant) := by
  rw [← Predicate.evaluateEach_eq_mapM]
  by_cases hk : k = .all
  · subst hk
    simp only [predicate, constant, if_true]
    rw [Predicate.evaluate]
    cases Predicate.evaluateEach aliases row Predicate.oddConjunct ps <;> rfl
  · have hjoin : k.join = Truth.any := funext fun ts => if_neg hk
    simp only [predicate, constant, hk, hjoin, if_false]
    rw [Predicate.evaluate]
    cases Predicate.evaluateEach aliases row Predicate.oddDisjunct ps <;> rfl

/-- The other answers of a group leave the decision to one more: all of them are true where all have to
be, none is where one is enough. -/
def Open (k : GroupKind) (ts : List Truth) : Prop :=
  if k = .all then ∀ t ∈ ts, t = some true else some true ∉ ts

theorem open_cons (k : GroupKind) (t : Truth) (ts : List Truth) :
    k.Open (t :: ts) ↔ (if k = .all then t = some true else t ≠ some true) ∧ k.Open ts := by
  unfold Open
  by_cases hk : k = .all
  · simp only [hk, if_true, List.forall_mem_cons]
  · simp only [hk, if_false, List.mem_cons, not_or, ne_eq, eq_comm]

/-- A group is met by its filters as a whole, or by one of them that decides. -/
theorem join_insert (k : GroupKind) (ts us : List Truth) (t : Truth) :
    k.join (ts ++ t :: us) = some true ↔
      if k = .all then k.Open (ts ++ us) ∧ t = some true else ¬k.Open (ts ++ us) ∨ t = some true := by
  unfold join Open
  by_cases hk : k = .all
  · simp only [hk, if_true, Truth.all_eq_true_iff, List.forall_mem_append, List.forall_mem_cons]
    tauto
  · simp only [hk, if_false, Truth.any_eq_true_iff, List.mem_append, List.mem_cons, not_not]
    tauto

theorem join_append (k : GroupKind) (ts us : List Truth) :
    k.join (ts ++ us) = some true ↔
      if k = .all then k.Open (ts ++ us) else ¬k.Open (ts ++ us) := by
  unfold join Open
  by_cases hk : k = .all
  · simp only [hk, if_true, Truth.all_eq_true_iff]
  · simp only [hk, if_false, Truth.any_eq_true_iff, not_not]

end GroupKind

/-! ### Answers that differ in one case -/

/-- The first answer is true where the second one is, and in one more case. -/
structure Truth.Loosens (opens : Prop) (t u : Truth) : Prop where
  true_iff : t = some true ↔ u = some true ∨ opens
  strict : opens → u ≠ some true

/-- One more answer that is true makes a difference where one is enough, and no other one is true. -/
theorem Truth.loosens_insert (k : GroupKind) (ts us : List Truth) :
    Loosens (k ≠ .all ∧ k.Open (ts ++ us)) (k.join (ts ++ some true :: us)) (k.join (ts ++ us)) := by
  have hwith := k.join_insert ts us (some true)
  have hwithout := k.join_append ts us
  by_cases hk : k = .all
  · rw [if_pos hk] at hwith hwithout
    constructor <;> tauto
  · rw [if_neg hk] at hwith hwithout
    constructor <;> tauto

/-- A difference in one answer is one in the answer of the group, where the other answers leave the
decision to it. -/
theorem Truth.Loosens.join {opens : Prop} {t u : Truth} (h : Loosens opens t u) (k : GroupKind)
    (ts us : List Truth) :
    Loosens (k.Open (ts ++ us) ∧ opens) (k.join (ts ++ t :: us)) (k.join (ts ++ u :: us)) := by
  obtain ⟨htrue, hstrict⟩ := h
  have hwith := k.join_insert ts us t
  have hwithout := k.join_insert ts us u
  by_cases hk : k = .all
  · rw [if_pos hk] at hwith hwithout
    constructor <;> tauto
  · rw [if_neg hk] at hwith hwithout
    constructor <;> tauto

/-! ### Places in forests -/

namespace Filter

/-- A place in a forest: between two of its filters, or in one of its groups. -/
inductive Place
  | here (before after : List Filter)
  | within (before : List Filter) (kind : GroupKind) (inner : Place) (after : List Filter)

/-- The forest with some filters at a place. -/
def Place.fill : Place → List Filter → List Filter
  | here before after, fs => before ++ fs ++ after
  | within before kind inner after, fs => before ++ group kind (inner.fill fs) :: after

/-- A row meets a filter as one of a group. -/
def Met (s : Setting) (aliases : Aliases) (row : Value) (k : GroupKind) (f : Filter) : Prop :=
  ∃ p, (select s f).outcome = .ok p ∧ p.answerAmong aliases row k.constant = .ok (some true)

/-- The other filters of a group leave the decision to one more: a row meets all of them where all have
to be met, and none where one is enough. -/
def LeaveOpen (s : Setting) (aliases : Aliases) (row : Value) (k : GroupKind) (others : List Filter) :
    Prop :=
  if k = .all then ∀ f ∈ others, Met s aliases row k f else ∀ f ∈ others, ¬Met s aliases row k f

/-- At this place of a group, a filter that is always met decides about a row that is not selected
otherwise: in its own group one is enough, and no group around it is decided by other filters. -/
def Place.Opens (s : Setting) (aliases : Aliases) (row : Value) : GroupKind → Place → Prop
  | k, here before after => k ≠ .all ∧ LeaveOpen s aliases row k (before ++ after)
  | k, within before kind inner after =>
    LeaveOpen s aliases row k (before ++ after) ∧ inner.Opens s aliases row kind

variable {s : Setting} {aliases : Aliases} {row : Value} {k : GroupKind} {fs : List Filter}
  {ps : List Predicate} {ts : List Truth}

/-! ### Compiled forests -/

theorem selectEach_outcome (s : Setting) (fs : List Filter) :
    (selectEach s fs).outcome = fs.mapM fun f => (select s f).outcome := by
  induction fs with
  | nil => rfl
  | cons f fs ih =>
    simp only [selectEach, Traced.bind_outcome, Traced.pure_outcome, ih, List.mapM_cons]
    rfl

theorem select_group_outcome (s : Setting) (k : GroupKind) (fs : List Filter) :
    (select s (group k fs)).outcome = k.predicate <$> (selectEach s fs).outcome := by
  rw [select, Traced.bind_outcome]
  cases (selectEach s fs).outcome <;> rfl

theorem met_iff {f : Filter} {p : Predicate} {t : Truth} (hp : (select s f).outcome = .ok p)
    (ht : p.answerAmong aliases row k.constant = .ok t) : Met s aliases row k f ↔ t = some true := by
  constructor
  · rintro ⟨q, hq, hmet⟩
    cases hp.symm.trans hq
    exact Except.ok.inj (ht.symm.trans hmet)
  · rintro rfl
    exact ⟨p, hp, ht⟩

/-- The answers of compiled filters say which of them a row meets. -/
theorem leaveOpen_iff (hps : fs.mapM (fun f => (select s f).outcome) = .ok ps)
    (hts : ps.mapM (Predicate.answerAmong aliases row k.constant) = .ok ts) :
    LeaveOpen s aliases row k fs ↔ k.Open ts := by
  rw [mapM_eq_ok_iff] at hps hts
  induction hps generalizing ts with
  | nil =>
    cases hts
    unfold LeaveOpen GroupKind.Open
    simp
  | cons hp _ ih =>
    cases hts with
    | cons ht hts =>
      rw [k.open_cons, ← ih hts, ← met_iff hp ht, LeaveOpen, LeaveOpen]
      split <;> simp [ne_eq, ← met_iff hp ht]

/-! ### Conditions without a value -/

/-- Both lists of predicates fail alike on every row, and in every group the answers of the first one
are true where those of the second one are, and where the place opens the group. -/
def Place.Loosens (s : Setting) (place : Place) (ps qs : List Predicate) : Prop :=
  ∀ aliases row (k : GroupKind), Outcome.Alike
    (fun ts us => Truth.Loosens (place.Opens s aliases row k) (k.join ts) (k.join us))
    (ps.mapM (Predicate.answerAmong aliases row k.constant))
    (qs.mapM (Predicate.answerAmong aliases row k.constant))

variable {place : Place} {before after : List Filter} {qs : List Predicate}

/-- One more predicate that always holds. -/
theorem Place.loosens_here (hps : before.mapM (fun f => (select s f).outcome) = .ok ps)
    (hqs : after.mapM (fun f => (select s f).outcome) = .ok qs) :
    (Place.here before after).Loosens s (ps ++ .const true :: qs) (ps ++ qs) := by
  intro aliases row k
  simp only [List.mapM_append, List.mapM_cons]
  refine .after_ok _ fun ts hts => ?_
  cases hus : qs.mapM (Predicate.answerAmong aliases row k.constant) with
  | error e => exact .error e
  | ok us =>
    refine .ok ?_
    rw [Place.Opens, leaveOpen_iff (mapM_append_ok hps hqs) (mapM_append_ok hts hus)]
    exact Truth.loosens_insert k ts us

/-- A difference in a group is one in the group around it. -/
theorem Place.Loosens.within {ps' qs' : List Predicate} (h : place.Loosens s ps' qs') (k' : GroupKind)
    (hps : before.mapM (fun f => (select s f).outcome) = .ok ps)
    (hqs : after.mapM (fun f => (select s f).outcome) = .ok qs) :
    (Place.within before k' place after).Loosens s (ps ++ k'.predicate ps' :: qs)
      (ps ++ k'.predicate qs' :: qs) := by
  intro aliases row k
  simp only [List.mapM_append, List.mapM_cons, bind_assoc, pure_bind,
    Predicate.answerAmong_of_proper (k'.predicate_proper _), k'.evaluate_predicate]
  refine .after_ok _ fun ts hts => ?_
  have hgroup := (h aliases row k').map (S := Truth.Loosens (place.Opens s aliases row k'))
    fun _ _ h => h
  refine hgroup.bind fun t u htu => .after_ok _ fun us hus => .ok ?_
  rw [Place.Opens, leaveOpen_iff (mapM_append_ok hps hqs) (mapM_append_ok hts hus)]
  exact htu.join k ts us

/-- **A condition without a value changes the predicates of a forest where its place opens it**, and
nowhere else. -/
theorem selectEach_ignored {c : Condition} (hc : c.ignored = true) (place : Place) :
    Outcome.Alike (place.Loosens s) (selectEach s (place.fill [condition c])).outcome
      (selectEach s (place.fill [])).outcome := by
  simp only [selectEach_outcome]
  induction place with
  | here before after =>
    simp only [Place.fill, List.mapM_append, List.mapM_cons, List.append_assoc, List.nil_append,
      List.mapM_nil, select_ignored s hc]
    refine .after_ok _ fun ps hps => ?_
    cases hqs : after.mapM (fun f => (select s f).outcome) with
    | error e => exact .error e
    | ok qs => exact .ok (Place.loosens_here hps hqs)
  | within before k inner after ih =>
    simp only [← selectEach_outcome] at ih
    simp only [Place.fill, List.mapM_append, List.mapM_cons, select_group_outcome, bind_assoc,
      pure_bind, map_eq_pure_bind]
    refine .after_ok _ fun ps hps => ih.bind fun ps' qs' h => .after_ok _ fun qs hqs => ?_
    exact .ok (h.within k hps hqs)

/-- **A condition without a value lets in the rows that its place is open for**, and changes nothing for
the others. Without it compiling and answering fail as before, or succeed as before. -/
theorem selectAll_ignored (s : Setting) {c : Condition} (hc : c.ignored = true) (place : Place) :
    Outcome.Alike
      (fun p q => ∀ aliases row, Outcome.Alike
        (fun b b' => (place.Opens s aliases row .all → b = true ∧ b' = false) ∧
          (¬place.Opens s aliases row .all → b = b'))
        (p.selects aliases row) (q.selects aliases row))
      (selectAll s (place.fill [condition c])).outcome (selectAll s (place.fill [])).outcome := by
  have hall : ∀ fs, (selectAll s fs).outcome = GroupKind.all.predicate <$> (selectEach s fs).outcome := by
    intro fs
    rw [selectAll, Traced.bind_outcome]
    cases (selectEach s fs).outcome <;> rfl
  rw [hall, hall]
  refine (selectEach_ignored hc place).map fun ps qs h aliases row => ?_
  rw [Predicate.selects_of_proper (GroupKind.all.predicate_proper _),
    Predicate.selects_of_proper (GroupKind.all.predicate_proper _), GroupKind.evaluate_predicate,
    GroupKind.evaluate_predicate, ← comp_map, ← comp_map]
  refine (h aliases row .all).map fun ts us hloosens => ⟨fun hopens => ?_, fun hopens => ?_⟩
  · exact ⟨beq_iff_eq.2 (hloosens.true_iff.2 (.inr hopens)),
      beq_eq_false_iff_ne.2 (hloosens.strict hopens)⟩
  · refine Bool.eq_iff_iff.2 ?_
    simp only [Function.comp_apply, beq_iff_eq, hloosens.true_iff, hopens, or_false]

end Filter

/-! ### Alternatives -/

/-- Declarations of what was paid and what is due. -/
def Declarations.amounts : Declarations :=
  { (default : Declarations) with
    name := "amounts"
    fields := [("paid", some (.text "integer")), ("due", some (.text "integer"))]
    filterable := .list [.text "paid", .text "due"]
    sortable := .list [] }

/-- The schema of these declarations. -/
def Schema.amounts : Schema :=
  ⟨"amounts", [.plain "paid" .integer, .plain "due" .integer], ["paid", "due"], [], .null, .null, .null,
    .null, .null⟩

/-- Filters on these fields: one or two was paid, or what is due is not said. -/
def Params.alternatives : List (Value × Value) :=
  let condition (field : String) (v : Value) : Value :=
    .map [(.text "field", .text field), (.text "op", .text "=="), (.text "value", v)]
  [(.text "filters", .list [.map [(.text "type", .text "or"), (.text "filters",
    .list [condition "paid" (.int 1), condition "paid" (.int 2), condition "due" .null])]])]

namespace Filter

/-- The place of the condition without a value in these filters. -/
def Place.alternatives : Place :=
  .within [] .any (.here [condition ⟨"paid", .eq, .int 1⟩, condition ⟨"paid", .eq, .int 2⟩] []) []

/-- A condition on what is due that does not say what it should be. -/
def anyDue : Condition := ⟨"due", .eq, .null⟩

/-- What the condition changes among the alternatives. -/
theorem selectAll_ignored_alternatives :
    anyDue.ignored = true ∧ Outcome.Alike
      (fun p q => ∀ aliases row, Outcome.Alike
        (fun b b' =>
          (Place.alternatives.Opens ⟨some .amounts, .warn, []⟩ aliases row .all →
            b = true ∧ b' = false) ∧
          (¬Place.alternatives.Opens ⟨some .amounts, .warn, []⟩ aliases row .all → b = b'))
        (p.selects aliases row) (q.selects aliases row))
      (selectAll ⟨some .amounts, .warn, []⟩ (Place.alternatives.fill [condition anyDue])).outcome
      (selectAll ⟨some .amounts, .warn, []⟩ (Place.alternatives.fill [])).outcome :=
  ⟨rfl, selectAll_ignored _ rfl _⟩

/-- **Three was paid, which is none of the alternatives**: with a condition that says nothing beside them
the row is selected, without it the row is not. -/
theorem ignored_opens :
    Schema.declare .amounts = .ok .amounts ∧ anyDue.ignored = true ∧
    ∃ r p q, ((Params.entries Params.alternatives).validateWith (some .amounts) .unrestricted).outcome =
        .ok r ∧
      r.filters = Place.alternatives.fill [condition anyDue] ∧
      (selectAll ⟨some .amounts, .warn, []⟩ r.filters).outcome = .ok p ∧
      (selectAll ⟨some .amounts, .warn, []⟩ (Place.alternatives.fill [])).outcome = .ok q ∧
      p.selects [] (.map [(.text "paid", .int 3), (.text "due", .int 4)]) = .ok true ∧
      q.selects [] (.map [(.text "paid", .int 3), (.text "due", .int 4)]) = .ok false := by
  have hvalid : ((Params.entries Params.alternatives).validateWith (some .amounts)
      .unrestricted).outcome =
        .ok ⟨Place.alternatives.fill [condition anyDue], none, none, .empty, none⟩ := by
    with_unfolding_all rfl
  refine ⟨rfl, rfl, _, _, _, hvalid, rfl, rfl, rfl, ?_, ?_⟩ <;> with_unfolding_all rfl

end Filter

end Sieve
