import Mathlib.Data.List.Nodup
import Sieve.Proofs.Outcome
import Sieve.Request.Navigation

/-!
# Pushing a field to the front of an ordering

A push makes a field the most significant one to order by. If the field is that already, its direction
changes: to the opposite one, or to the next one of a cycle. The other fields keep their directions and
their order among themselves, and the result is read from its start again.

* `Direction.Opposes`, `Direction.Succeeds`: the direction that a push changes to;
* `Request.Pushed`: what a push makes of a request;
* `Request.sort_pushTimes`: any number of pushes walk around the cycle;
* `Request.pushOrderNamed_pushed`: what one push does, and when pushes restore the ordering.
-/

namespace Sieve

/-! ### The next direction -/

namespace Direction

/-- A direction is the other way round, with nulls in the same place. -/
def Opposes (current next : Direction) : Prop :=
  next.ascending = !current.ascending ∧ next.nulls = current.nulls

/-- The directions that follow another one in a cycle: those at the next place, behind the last one the
first one. What follows a direction that is not in the cycle is the first one. -/
inductive Succeeds (cycle : List Direction) (current : Direction) : Direction → Prop
  | next {i : ℕ} {d : Direction} (hcurrent : cycle[i]? = some current)
      (hnext : cycle[(i + 1) % cycle.length]? = some d) : Succeeds cycle current d
  | first {d : Direction} (hmissing : current ∉ cycle) (hfirst : cycle[0]? = some d) :
      Succeeds cycle current d

/-- Toggling a direction reaches the only one that is opposed to it. -/
theorem opposes_iff {current next : Direction} : current.Opposes next ↔ next = current.toggle := by
  unfold Opposes
  cases current <;> cases next <;> decide

end Direction

/-- Directions by their names. -/
def Direction.named (ds : List Direction) : List Value :=
  ds.map (.text ·.name)

theorem Direction.mapM_ofValue_named (ds : List Direction) :
    (Direction.named ds).mapM Direction.ofValue = .ok ds := by
  rw [Outcome.mapM_eq_ok_iff, Direction.named, List.forall₂_map_left_iff, List.forall₂_same]
  intro d _
  rw [Direction.ofValue, Direction.ofName?_name]

namespace Request

variable {r : Request} {field : String} {cycle : List Direction} {d : Direction} {rest : SortOrder}

/-- Behind the place where a direction is found first comes the next one. -/
theorem nextDirection_of_idxOf? {i : ℕ} (hi : cycle.idxOf? d = some i) :
    cycle[(i + 1) % cycle.length]? = some (nextDirection d cycle) := by
  obtain ⟨hlt, -, -⟩ := List.idxOf?_eq_some_iff.1 hi
  cases cycle with
  | nil => cases hlt
  | cons c cs =>
    simp only [nextDirection, hi]
    rcases Nat.lt_or_ge (i + 1) (c :: cs).length with hinner | hlast
    · rw [Nat.mod_eq_of_lt hinner, List.getElem?_eq_getElem hinner, Option.getD_some]
    · have hend : i + 1 = (c :: cs).length := by omega
      rw [hend, Nat.mod_self, List.getElem?_eq_none le_rfl]
      rfl

theorem succeeds_nextDirection (hcycle : cycle ≠ []) :
    d.Succeeds cycle (nextDirection d cycle) := by
  cases hi : cycle.idxOf? d with
  | some i =>
    obtain ⟨hlt, heq, -⟩ := List.idxOf?_eq_some_iff.1 hi
    exact .next (List.getElem?_eq_some_iff.2 ⟨hlt, heq⟩) (nextDirection_of_idxOf? hi)
  | none =>
    obtain ⟨c, cs, rfl⟩ := List.exists_cons_of_ne_nil hcycle
    refine .first (List.idxOf?_eq_none_iff.1 hi) ?_
    simp [nextDirection, hi]

/-- In a cycle without repetitions a direction has one place. -/
theorem nextDirection_getElem (hcycle : cycle.Nodup) {i : ℕ} (hd : cycle[i]? = some d) :
    cycle[(i + 1) % cycle.length]? = some (nextDirection d cycle) := by
  obtain ⟨hlt, heq⟩ := List.getElem?_eq_some_iff.1 hd
  refine nextDirection_of_idxOf? (List.idxOf?_eq_some_iff.2 ⟨hlt, heq, fun j hj hsame => ?_⟩)
  exact hj.ne ((hcycle.getElem_inj_iff).1 (hsame.trans heq.symm))

/-! ### One push -/

@[simp] theorem sort_restarted (r : Request) (sort : SortOrder) : (r.restarted sort).sort = sort :=
  SortOrder.of_names_directions sort

@[simp] theorem sort_pushOrder (r : Request) (field : String) (cycle : List Direction) :
    (r.pushOrder field cycle).sort = pushed r.sort field cycle :=
  sort_restarted r _

theorem isPrimary_iff : r.isPrimary field = true ↔ ∃ d rest, r.sort = ⟨field, d⟩ :: rest := by
  rw [isPrimary, beq_iff_eq, ← sort_names, SortOrder.names, List.head?_map]
  cases r.sort with
  | nil => simp
  | cons t rest =>
    obtain ⟨name, d⟩ := t
    simp

theorem pushed_primary (field : String) (d : Direction) (rest : SortOrder)
    (cycle : List Direction) :
    pushed (⟨field, d⟩ :: rest) field cycle = ⟨field, nextDirection d cycle⟩ :: rest :=
  if_pos rfl

/-- A field that is not the first one comes in front of all others. -/
theorem pushed_new (h : r.isPrimary field = false) :
    pushed r.sort field cycle = ⟨field, cycle.headD .asc⟩ :: r.sort.filter (·.field != field) := by
  rw [← Bool.not_eq_true, isPrimary_iff] at h
  cases hsort : r.sort with
  | nil => rfl
  | cons t rest =>
    refine if_neg fun hfield => h ⟨t.direction, rest, ?_⟩
    rw [hsort, ← hfield]

/-- A push reads as many directions as it uses. -/
theorem pushOrderNamed_named (r : Request) (field : String) (cycle : List Direction) :
    r.pushOrderNamed field (Direction.named cycle) = .ok (r.pushOrder field cycle) := by
  unfold pushOrderNamed
  dsimp only
  cases hprimary : r.isPrimary field with
  | true =>
    rw [if_pos rfl, Direction.mapM_ofValue_named]
    rfl
  | false =>
    have htake : (Direction.named cycle).take 1 = Direction.named (cycle.take 1) :=
      List.map_take.symm
    have hhead : (cycle.take 1).headD .asc = cycle.headD .asc := by cases cycle <;> rfl
    rw [if_neg Bool.false_ne_true, htake, Direction.mapM_ofValue_named, Outcome.ok_bind, pushOrder,
      pushOrder, pushed_new hprimary, pushed_new hprimary, hhead]
    rfl

/-- The directions that a push can give to a field: the first one of the cycle if the field has not been
the first one to order by, and else what follows its direction. -/
inductive Leading (sort : SortOrder) (field : String) (cycle : List Direction) : Direction → Prop
  | new (hnew : sort.names.head? ≠ some field) : Leading sort field cycle (cycle.headD .asc)
  | opposed {current next : Direction} {rest : SortOrder} (hsort : sort = ⟨field, current⟩ :: rest)
      (hcycle : cycle = []) (h : current.Opposes next) : Leading sort field cycle next
  | cycled {current next : Direction} {rest : SortOrder} (hsort : sort = ⟨field, current⟩ :: rest)
      (hcycle : cycle ≠ []) (h : current.Succeeds cycle next) : Leading sort field cycle next

/-- What a push makes of a request. -/
structure Pushed (r : Request) (field : String) (cycle : List Direction) (r' : Request) : Prop where
  sort : ∃ d, Leading r.sort field cycle d ∧
    r'.sort = ⟨field, d⟩ :: r.sort.filter (·.field != field)
  /-- No name is repeated, and every name has a direction of its own. -/
  distinct : r'.orderNames.Nodup
  directions : r'.directions = some (r'.sort.map (·.direction))
  /-- The result is read from its start. -/
  page : r'.pagination.page = if r.pagination.page = .null then .null else .int 1
  offset : r'.pagination.offset = if r.pagination.offset = .null then .null else .int 0
  after : r'.pagination.after = .null
  before : r'.pagination.before = .null
  cursor : r'.cursor = none
  /-- What is asked for remains. -/
  filters : r'.filters = r.filters
  limit : r'.pagination.limit = r.pagination.limit
  pageSize : r'.pagination.pageSize = r.pagination.pageSize
  first : r'.pagination.first = r.pagination.first
  last : r'.pagination.last = r.pagination.last

theorem inPlace_eq (given replacement : Value) :
    inPlace given replacement = if given = .null then .null else replacement := by
  unfold inPlace
  exact if_congr Value.isNull_iff rfl rfl

/-- Without repeated names the first field does not occur again. -/
theorem filter_primary (hnames : r.orderNames.Nodup) (hsort : r.sort = ⟨field, d⟩ :: rest) :
    r.sort.filter (·.field != field) = rest := by
  rw [← sort_names, hsort, SortOrder.names, List.map_cons, List.nodup_cons] at hnames
  rw [hsort, List.filter_cons_of_neg (by simp), List.filter_eq_self]
  intro t ht
  rw [bne_iff_ne]
  exact fun hfield => hnames.1 (List.mem_map.2 ⟨t, ht, hfield⟩)

theorem pushed_leading (hnames : r.orderNames.Nodup) (field : String) (cycle : List Direction) :
    ∃ d, Leading r.sort field cycle d ∧
      pushed r.sort field cycle = ⟨field, d⟩ :: r.sort.filter (·.field != field) := by
  cases hprimary : r.isPrimary field with
  | false =>
    refine ⟨_, .new fun hhead => ?_, pushed_new hprimary⟩
    rw [sort_names] at hhead
    rw [isPrimary, hhead, beq_self_eq_true] at hprimary
    cases hprimary
  | true =>
    obtain ⟨d, rest, hsort⟩ := isPrimary_iff.1 hprimary
    refine ⟨nextDirection d cycle, ?_, ?_⟩
    · by_cases hcycle : cycle = []
      · subst hcycle
        exact .opposed hsort rfl (Direction.opposes_iff.2 rfl)
      · exact .cycled hsort hcycle (succeeds_nextDirection hcycle)
    · rw [filter_primary hnames hsort, hsort, pushed_primary]

theorem pushOrder_pushed (hnames : r.orderNames.Nodup) (field : String) (cycle : List Direction) :
    r.Pushed field cycle (r.pushOrder field cycle) where
  sort := by
    rw [sort_pushOrder]
    exact pushed_leading hnames field cycle
  distinct := by
    obtain ⟨d, _, hsort⟩ := pushed_leading hnames field cycle
    rw [← sort_names, sort_pushOrder, hsort, SortOrder.names, List.map_cons, List.nodup_cons]
    constructor
    · simp
    · rw [← sort_names] at hnames
      exact hnames.sublist (List.filter_sublist.map _)
  directions := by
    rw [sort_pushOrder]
    rfl
  page := inPlace_eq _ _
  offset := inPlace_eq _ _
  after := rfl
  before := rfl
  cursor := rfl
  filters := rfl
  limit := rfl
  pageSize := rfl
  first := rfl
  last := rfl

/-! ### Several pushes -/

/-- The request after a field was pushed a number of times. -/
def pushTimes (r : Request) (field : String) (cycle : List Value) : ℕ → Except Error Request
  | 0 => .ok r
  | n + 1 => do (← r.pushTimes field cycle n).pushOrderNamed field cycle

theorem pushTimes_succ {cycle : List Value} {n : ℕ} {r' : Request}
    (h : r.pushTimes field cycle n = .ok r') :
    r.pushTimes field cycle (n + 1) = r'.pushOrderNamed field cycle := by
  rw [pushTimes, h, Outcome.ok_bind]

/-- **Pushes walk around the cycle**, one place each, and change nothing else about the ordering. -/
theorem sort_pushTimes (hcycle : cycle.Nodup) {i : ℕ} (hi : cycle[i]? = some d)
    (hsort : r.sort = ⟨field, d⟩ :: rest) (n : ℕ) :
    ∃ r' d', r.pushTimes field (Direction.named cycle) n = .ok r' ∧
      cycle[(i + n) % cycle.length]? = some d' ∧ r'.sort = ⟨field, d'⟩ :: rest := by
  induction n with
  | zero =>
    obtain ⟨hlt, -⟩ := List.getElem?_eq_some_iff.1 hi
    exact ⟨r, d, rfl, by rwa [Nat.add_zero, Nat.mod_eq_of_lt hlt], hsort⟩
  | succ n ih =>
    obtain ⟨r', d', hr', hd', hsort'⟩ := ih
    refine ⟨r'.pushOrder field cycle, nextDirection d' cycle, ?_, ?_, ?_⟩
    · rw [pushTimes_succ hr', pushOrderNamed_named]
    · rw [← nextDirection_getElem hcycle hd', Nat.mod_add_mod, Nat.add_assoc]
    · rw [sort_pushOrder, hsort', pushed_primary]

/-- The opposite of the opposite direction is the direction itself. -/
theorem sort_pushTimes_two (hsort : r.sort = ⟨field, d⟩ :: rest) :
    ∃ r', r.pushTimes field [] 2 = .ok r' ∧ r'.sort = r.sort := by
  refine ⟨(r.pushOrder field []).pushOrder field [], ?_, ?_⟩
  · have hone : r.pushTimes field [] 1 = .ok (r.pushOrder field []) :=
      (pushTimes_succ rfl).trans (pushOrderNamed_named r field [])
    rw [pushTimes_succ hone]
    exact pushOrderNamed_named _ field []
  · rw [sort_pushOrder, sort_pushOrder, hsort, pushed_primary, pushed_primary, nextDirection_nil,
      nextDirection_nil, Direction.toggle_toggle]

/-- **A push puts a field in front of an ordering without repeated names**, in its first or its next
direction, and starts over. Two pushes of the first field without a cycle restore the ordering, and so do
as many as the cycle has directions, if that of the field is one of them. -/
theorem pushOrderNamed_pushed (hnames : r.orderNames.Nodup) (hcycle : cycle.Nodup) :
    (∃ r', r.pushOrderNamed field (Direction.named cycle) = .ok r' ∧ r.Pushed field cycle r') ∧
    ∀ d rest, r.sort = ⟨field, d⟩ :: rest →
      (∃ r', r.pushTimes field [] 2 = .ok r' ∧ r'.sort = r.sort) ∧
      (d ∈ cycle → ∃ r', r.pushTimes field (Direction.named cycle) cycle.length = .ok r' ∧
        r'.sort = r.sort) := by
  refine ⟨⟨_, pushOrderNamed_named r field cycle, pushOrder_pushed hnames field cycle⟩, ?_⟩
  intro d rest hsort
  refine ⟨sort_pushTimes_two hsort, fun hd => ?_⟩
  obtain ⟨i, hlt, hi⟩ := List.getElem_of_mem hd
  have hi' : cycle[i]? = some d := List.getElem?_eq_some_iff.2 ⟨hlt, hi⟩
  obtain ⟨r', d', hr', hd', hsort'⟩ := sort_pushTimes hcycle hi' hsort cycle.length
  rw [Nat.add_mod_right, Nat.mod_eq_of_lt hlt, hi', Option.some.injEq] at hd'
  exact ⟨r', hr', by rw [hsort', hsort, hd']⟩

/-- The fourth page of an ordering by three fields, with a direction for the first one only. -/
def byThreeNames : Request :=
  { all with
    orderBy := some ["name", "age", "id"]
    directions := some [.descNullsLast]
    pagination := { Pagination.empty with page := .int 4, pageSize := .int 10 } }

/-- The second of three fields is put in front of the others. The first one walks around a cycle that its
direction is in. -/
theorem pushOrderNamed_pushed_byThreeNames :
    (∃ r', byThreeNames.pushOrderNamed "age" (Direction.named [.descNullsLast, .ascNullsFirst]) =
        .ok r' ∧
      r'.sort = [⟨"age", .descNullsLast⟩, ⟨"name", .descNullsLast⟩, ⟨"id", .asc⟩] ∧
      r'.pagination.page = .int 1) ∧
    ∃ r', byThreeNames.pushTimes "name" (Direction.named [.descNullsLast, .ascNullsFirst]) 2 =
        .ok r' ∧ r'.sort = byThreeNames.sort := by
  have hnames : byThreeNames.orderNames.Nodup := by decide
  have hcycle : [Direction.descNullsLast, .ascNullsFirst].Nodup := by decide
  have hsecond : ∀ d rest, byThreeNames.sort ≠ ⟨"age", d⟩ :: rest := fun d rest hsort =>
    absurd (isPrimary_iff.2 ⟨d, rest, hsort⟩) (by decide)
  obtain ⟨⟨r', hr', hpushed⟩, -⟩ := @pushOrderNamed_pushed _ "age" _ hnames hcycle
  obtain ⟨-, hagain⟩ := @pushOrderNamed_pushed _ "name" _ hnames hcycle
  refine ⟨⟨r', hr', ?_, hpushed.page.trans (if_neg nofun)⟩,
    (hagain .descNullsLast _ rfl).2 (by decide)⟩
  obtain ⟨d, hd, hsort⟩ := hpushed.sort
  cases hd with
  | new => exact hsort
  | opposed hfirst => exact absurd hfirst (hsecond _ _)
  | cycled hfirst => exact absurd hfirst (hsecond _ _)

end Request

end Sieve
