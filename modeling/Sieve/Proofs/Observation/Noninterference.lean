import Sieve.Proofs.Observation.Compiled
import Sieve.Proofs.Observation.Lockstep
import Sieve.Query

/-!
# Parameters cannot observe hidden fields

Two collections whose rows agree in all exposed fields give the same answer to all parameters: the
same events, the same error, or pages with the same positions and equal data about the result. What
the rows hold elsewhere has no influence.

* `Schema.SameRow`: rows at the same position that agree;
* `fetch_alike`, `count_eq`: plans that refer to exposed fields fetch and count alike;
* `Query.run_alike`: a request with declared fields is answered alike;
* `Query.validateAndRun_alike`: so are all parameters.
-/

namespace Sieve

variable {s : Schema} {aliases : Aliases}

/-- The rows stand at the same position and agree. -/
structure Schema.SameRow (s : Schema) (x y : Row) : Prop where
  position : x.position = y.position
  data : s.Agree x.data y.data

theorem Row.collection_alike {xs ys : List Value} (h : List.Forall₂ s.Agree xs ys) :
    List.Forall₂ s.SameRow (Row.collection xs) (Row.collection ys) := by
  unfold Row.collection
  generalize 0 = k
  induction h generalizing k with
  | nil => exact .nil
  | cons hxy _ ih => exact .cons ⟨rfl, hxy⟩ (ih (k + 1))

/-! ### Fetching -/

theorem compareRows_eq (hs : s.IsStored) {keys : List SortKey} (hk : ∀ k ∈ keys, s.Refers k.ref)
    {a a' b b' : Value} (ha : s.Agree a a') (hb : s.Agree b b') :
    compareRows aliases keys a b = compareRows aliases keys a' b' := by
  induction keys with
  | nil => rfl
  | cons k ks ih =>
    unfold compareRows
    rw [Schema.read_eq hs ha (hk k (by simp)), Schema.read_eq hs hb (hk k (by simp)),
      ih fun l hl => hk l (by simp [hl])]

variable {rows rows' : List Row}

theorem selectRows_alike (hs : s.IsStored) {p : Predicate} (hp : s.ReadsExposed p)
    (h : List.Forall₂ s.SameRow rows rows') :
    Outcome.Alike (List.Forall₂ s.SameRow) (selectRows aliases p rows)
      (selectRows aliases p rows') :=
  Outcome.filterM_alike (fun _ _ hxy => Predicate.selects_congr fun r hr =>
    Schema.read_eq hs hxy.data (hp r hr) aliases) h

theorem sortRows_alike (hs : s.IsStored) {keys : List SortKey} (hk : ∀ k ∈ keys, s.Refers k.ref)
    (h : List.Forall₂ s.SameRow rows rows') :
    Outcome.Alike (List.Forall₂ s.SameRow) (sortRows aliases keys rows)
      (sortRows aliases keys rows') := by
  unfold sortRows
  split
  · exact .ok h
  · refine Insertion.sortBy_alike (fun a a' b b' ha hb => ?_) h
    rw [compareRows_eq hs hk ha.data hb.data]

/-- A plan that refers to exposed fields only fetches the same positions. -/
theorem fetch_alike (hs : s.IsStored) {p : Plan} (hp : s.PlansExposed p)
    (h : List.Forall₂ s.SameRow rows rows') :
    Outcome.Alike (List.Forall₂ s.SameRow) (fetch aliases rows p) (fetch aliases rows' p) :=
  (selectRows_alike hs hp.predicate h).bind fun _ _ hsel =>
    (sortRows_alike hs hp.ordering hsel).bind fun _ _ hsort => window_alike hsort _ _

theorem count_eq (hs : s.IsStored) {p : Predicate} (hp : s.ReadsExposed p)
    (h : List.Forall₂ s.SameRow rows rows') : count aliases rows p = count aliases rows' p :=
  ((selectRows_alike hs hp h).bind fun _ _ hsel => .ok hsel.length_eq).eq

/-! ### Answers -/

/-- The pages hold the same positions in the same order, and the data about the result are equal. -/
structure Page.SamePlaces (p q : Page) : Prop where
  positions : p.rows.map (·.position) = q.rows.map (·.position)
  info : p.info = q.info

theorem positions_eq (h : List.Forall₂ s.SameRow rows rows') :
    rows.map (·.position) = rows'.map (·.position) := by
  induction h with
  | nil => rfl
  | cons hxy _ ih => rw [List.map_cons, List.map_cons, hxy.position, ih]

theorem getLastD_sameRow {x y : Row} (hxy : s.SameRow x y) (h : List.Forall₂ s.SameRow rows rows') :
    s.Agree ((rows.map (·.data)).getLastD x.data) ((rows'.map (·.data)).getLastD y.data) := by
  induction h generalizing x y with
  | nil => exact hxy.data
  | cons hab _ ih =>
    rw [List.map_cons, List.map_cons, List.getLastD_cons, List.getLastD_cons]
    exact ih hab

/-- The tokens of the ends are made from exposed fields. -/
theorem Cursor.ends_eq (hs : s.IsStored) {names : List String} (hn : ∀ n ∈ names, s.Exposed n)
    (h : List.Forall₂ s.SameRow rows rows') :
    Cursor.ends (some s) none names (rows.map (·.data)) =
      Cursor.ends (some s) none names (rows'.map (·.data)) := by
  cases h with
  | nil => rfl
  | cons hxy hr =>
    simp only [List.map_cons, Cursor.ends, Cursor.tokenOf, Option.getD_none]
    rw [Cursor.ofRow_eq hs hxy.data hn, Cursor.ofRow_eq hs (getLastD_sameRow hxy hr) hn]

namespace Query

variable {o : Options} {r : Request}

theorem pageRows_alike (h : List.Forall₂ s.SameRow rows rows') :
    Outcome.Alike (List.Forall₂ s.SameRow) (pageRows r rows) (pageRows r rows') := by
  unfold pageRows
  split
  · refine Outcome.Alike.after _ fun stop => .ok ?_
    split
    · exact List.rel_reverse (slice_alike h _ _)
    · exact slice_alike h _ _
  · exact .ok h

theorem fetchPage_alike (hs : s.IsStored) (hr : r.Declared s)
    (h : List.Forall₂ s.SameRow rows rows') :
    Traced.Alike (fun p q => List.Forall₂ s.SameRow p.1 q.1 ∧ p.2 = q.2)
      (fetchPage (inMemory aliases rows (some s) o) r)
      (fetchPage (inMemory aliases rows' (some s) o) r) := by
  refine Traced.Alike.after _ fun plan hplan => ?_
  refine (Traced.alike_lift (fetch_alike hs (Request.plan_reads hs hr plan hplan) h)).bind
    fun fetched fetched' hf => ?_
  refine (Traced.alike_lift (pageRows_alike hf)).bind fun page page' hp => ?_
  exact Traced.alike_pure ⟨hp, hf.length_eq⟩

theorem beyond_eq (hs : s.IsStored) (hr : r.Declared s) (h : List.Forall₂ s.SameRow rows rows') :
    beyond (inMemory aliases rows (some s) o) r = beyond (inMemory aliases rows' (some s) o) r := by
  refine (Traced.Alike.after _ fun found hfound => ?_).eq
  cases found with
  | none => exact Traced.alike_pure rfl
  | some plan =>
    have hplan := Request.lookback_reads hs hr _ hfound plan rfl
    refine (Traced.alike_lift (fetch_alike hs hplan h)).bind fun fetched fetched' hf =>
      Traced.alike_pure ?_
    cases hf with
    | nil => rfl
    | cons => rfl

theorem cursorFindings_eq (hs : s.IsStored) (ho : o.cursorFunction = none) (hr : r.Declared s)
    (h : List.Forall₂ s.SameRow rows rows') {page page' : List Row}
    (hp : List.Forall₂ s.SameRow page page') (n : Nat) :
    cursorFindings (inMemory aliases rows (some s) o) r page n =
      cursorFindings (inMemory aliases rows' (some s) o) r page' n := by
  have hexposed : ∀ n ∈ r.orderNames, s.Exposed n := fun n hn => .sortable (hr.ordering n hn)
  unfold cursorFindings
  rw [beyond_eq hs hr h]
  simp only [inMemory, ho]
  rw [Cursor.ends_eq hs hexposed hp]

theorem countFindings_eq (hs : s.IsStored) (hr : r.Declared s)
    (h : List.Forall₂ s.SameRow rows rows') :
    countFindings (inMemory aliases rows (some s) o) r =
      countFindings (inMemory aliases rows' (some s) o) r := by
  refine (Traced.Alike.bind (R := (· = ·)) ?_ fun n n' hn => hn ▸ Traced.alike_self _).eq
  refine Traced.Alike.after _ fun p hp => Traced.alike_lift ?_
  have hcount : Sieve.count aliases rows p = Sieve.count aliases rows' p :=
    count_eq hs (Request.predicate_reads hs hr p hp) h
  simp only [inMemory, Source.memory, hcount]
  exact Outcome.alike_self _

theorem describe_alike (h : List.Forall₂ s.SameRow rows rows') (findings : Meta.Findings)
    (schema : Option String) :
    Traced.Alike Page.SamePlaces
      (do
        let info ← Traced.lift (Meta.of r findings)
        Traced.log (.queryExecuted schema rows.length info.totalCount)
        return ⟨rows, info⟩)
      (do
        let info ← Traced.lift (Meta.of r findings)
        Traced.log (.queryExecuted schema rows'.length info.totalCount)
        return ⟨rows', info⟩) := by
  rw [h.length_eq]
  exact Traced.Alike.after _ fun info _ => Traced.Alike.after _ fun _ _ =>
    Traced.alike_pure ⟨positions_eq h, rfl⟩

/-- A request with declared fields is answered alike. -/
theorem run_alike (hs : s.IsStored) (ho : o.cursorFunction = none) (hr : r.Declared s)
    (h : List.Forall₂ s.SameRow rows rows') :
    Traced.Alike Page.SamePlaces (run (inMemory aliases rows (some s) o) r)
      (run (inMemory aliases rows' (some s) o) r) := by
  unfold run
  by_cases hc : r.byCursor = true
  · simp only [hc, if_true]
    refine (fetchPage_alike hs hr h).bind fun (page, n) (page', n') ⟨hp, hn⟩ => ?_
    change n = n' at hn
    subst hn
    rw [cursorFindings_eq hs ho hr h hp]
    exact Traced.Alike.after _ fun findings _ => describe_alike hp findings _
  · simp only [hc, if_false, Bool.false_eq_true]
    refine (fetchPage_alike hs hr h).bind fun (page, n) (page', n') ⟨hp, _⟩ => ?_
    rw [countFindings_eq hs hr h]
    exact Traced.Alike.after _ fun findings _ => describe_alike hp findings _

/-- **Parameters cannot observe hidden fields.** On two collections that agree in all exposed
fields, any parameters report the same events and fail with the same error, or are answered with
pages that hold the same positions and equal data about the result. -/
theorem validateAndRun_alike {s : Schema} (hs : s.IsStored) {o : Options}
    (ho : o.cursorFunction = none) (aliases : Aliases) {xs ys : List Value}
    (h : List.Forall₂ s.Agree xs ys) (params : Params) :
    Traced.Alike Page.SamePlaces
      (validateAndRun (inMemory aliases (Row.collection xs) (some s) o) params)
      (validateAndRun (inMemory aliases (Row.collection ys) (some s) o) params) := by
  unfold validateAndRun
  cases hv : (params.validateWith (some s) o).outcome with
  | ok r =>
    simp only [inMemory, hv]
    refine Traced.Alike.after _ fun r' hr' => ?_
    cases hr'
    exact run_alike hs ho (Params.validateWith_declared hv) (Row.collection_alike h)
  | error e =>
    simp only [inMemory, hv]
    cases e.messages? with
    | some messages => exact ⟨rfl, .ok ⟨rfl, rfl⟩⟩
    | none => exact ⟨rfl, .error e⟩

/-- A schema with a field that parameters may name and one that they may not. -/
def guarded : Schema :=
  ⟨"account", [.plain "id" .integer, .plain "secret" .string], ["id"], ["id"], .null, .null, .null,
    .null, .null⟩

/-- A row of such a schema. -/
def guardedRow (id : Int) (secret : String) : Value :=
  .record [("id", .int id), ("secret", .text secret)]

theorem exposed_guarded {n : String} (h : guarded.Exposed n) : n = "id" := by
  induction h with
  | filterable h => simpa [Schema.isFilterable, guarded] using h
  | sortable h => simpa [Schema.isSortable, guarded] using h
  | member _ hf _ ih =>
    subst ih
    cases hf

theorem agree_guardedRow (id : Int) (secret secret' : String) :
    guarded.Agree (guardedRow id secret) (guardedRow id secret') := by
  intro n f hn hf _
  cases exposed_guarded hn
  cases hf
  rfl

/-- Options that admit filters and orderings. -/
def admitting : Options :=
  { (default : Options) with ordering := .bool true, filtering := .bool true }

/-- Parameters that try to order by the hidden field. -/
def probing : Params :=
  .entries [(.text "order_by", .list [.text "id", .text "secret"]), (.text "first", .int 1)]

theorem validateAndRun_alike_guarded :
    guarded.IsStored ∧ admitting.cursorFunction = none ∧
      List.Forall₂ guarded.Agree [guardedRow 1 "a", guardedRow 2 "b"]
        [guardedRow 1 "c", guardedRow 2 "d"] ∧
      Traced.Alike Page.SamePlaces
        (validateAndRun (inMemory [] (Row.collection [guardedRow 1 "a", guardedRow 2 "b"])
          (some guarded) admitting) probing)
        (validateAndRun (inMemory [] (Row.collection [guardedRow 1 "c", guardedRow 2 "d"])
          (some guarded) admitting) probing) := by
  have hs : guarded.IsStored := by
    intro f hf
    rcases List.mem_cons.1 hf with rfl | hf
    · trivial
    · rw [List.mem_singleton.1 hf]
      trivial
  have hrows : List.Forall₂ guarded.Agree [guardedRow 1 "a", guardedRow 2 "b"]
      [guardedRow 1 "c", guardedRow 2 "d"] :=
    .cons (agree_guardedRow 1 "a" "c") (.cons (agree_guardedRow 2 "b" "d") .nil)
  exact ⟨hs, rfl, hrows, validateAndRun_alike hs rfl [] hrows probing⟩

end Query

end Sieve
